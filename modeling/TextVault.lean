import TextVault.Act
import TextVault.Alarm.Board
import TextVault.Alarm.Clock
import TextVault.Bus.Channel
import TextVault.Bus.Event
import TextVault.Bus.Hall
import TextVault.Bus.Subscription
import TextVault.Console.Basic
import TextVault.Console.Command
import TextVault.Console.Report
import TextVault.Console.Start
import TextVault.Contact.Basic
import TextVault.Contact.Directory
import TextVault.Contact.Person
import TextVault.Intake.Challenge
import TextVault.Intake.Form
import TextVault.Intake.Payload
import TextVault.Intake.Verdict
import TextVault.Intake.Wire
import TextVault.Json.Codec
import TextVault.Json.Number
import TextVault.Json.Quoted
import TextVault.Json.Reader
import TextVault.Json.Skip
import TextVault.Json.Value
import TextVault.Json.Writer
import TextVault.Key.Cache
import TextVault.Key.Credential
import TextVault.Key.Policy
import TextVault.Labelled
import TextVault.Main
import TextVault.Message.Classifier
import TextVault.Message.Delivery
import TextVault.Message.Display
import TextVault.Message.Form
import TextVault.Message.Mask
import TextVault.Message.Record
import TextVault.Message.Tag
import TextVault.Named
import TextVault.Proofs.Alarm.Clock
import TextVault.Proofs.Bus.Channel
import TextVault.Proofs.Bus.Reading
import TextVault.Proofs.Key.Alarm
import TextVault.Proofs.Key.Deadline
import TextVault.Proofs.Key.Run
import TextVault.Proofs.Key.Scrubbing
import TextVault.Proofs.Key.Telling
import TextVault.Proofs.Vault.LateAlarm
import TextVault.Proofs.Vault.SessionKeys
import TextVault.Settings.Basic
import TextVault.Settings.File
import TextVault.Settings.Variables
import TextVault.Shelf.Basic
import TextVault.Shelf.WeakCache
import TextVault.Text.Blank
import TextVault.Text.Numeral
import TextVault.Text.Printable
import TextVault.Text.Quoted
import TextVault.Text.Start
import TextVault.Text.Terminal
import TextVault.Text.Utf8
import TextVault.Vault.Basic
import TextVault.Vault.Session
import TextVault.Vault.Store
import TextVault.Proofs.Bus.Account
import TextVault.Proofs.Bus.Inbox
import TextVault.Proofs.Bus.Delivery
import TextVault.Proofs.Vault.Inbound
import TextVault.Proofs.Vault.Following
import TextVault.Proofs.Message.Mask
import TextVault.Proofs.Message.Tag
import TextVault.Proofs.Message.Rules
import TextVault.Proofs.Message.Shown
import TextVault.Proofs.Shelf.Journal
import TextVault.Proofs.Shelf.Latest
import TextVault.Proofs.Shelf.Found
import TextVault.Proofs.Shelf.Retention
import TextVault.Proofs.Vault.Records
import TextVault.Proofs.Intake.Screening
import TextVault.Proofs.Vault.Apart
import TextVault.Proofs.Console.Idle
import TextVault.Proofs.Key.Interval
import TextVault.Proofs.Console.Session
import TextVault.Proofs.Json.Number
import TextVault.Proofs.Json.Quoted
import TextVault.Proofs.Json.Skip
import TextVault.Proofs.Text.Utf8
import TextVault.Proofs.Json.Record
import TextVault.Proofs.Json.Lawful
import TextVault.Proofs.Message.Form
import TextVault.Proofs.Json.Listing
import TextVault.Proofs.Intake.Form
import TextVault.Proofs.Settings.File
import TextVault.Proofs.Key.Postponing
import TextVault.Proofs.Key.Renewal
import TextVault.Proofs.Key.Surfaces
import TextVault.Proofs.Message.Axes
import TextVault.Proofs.Intake.Challenge
import TextVault.Proofs.Message.Tagging
import TextVault.Proofs.Message.Views
import TextVault.Proofs.Vault.Cutting
import TextVault.Proofs.Text.Blank
import TextVault.Proofs.Text.Numeral
import TextVault.Proofs.Settings.Variables
import TextVault.Proofs.Contact.Journal
import TextVault.Proofs.Contact.Telling
import TextVault.Proofs.Contact.Resolving
import TextVault.Proofs.Contact.Levels
import TextVault.Proofs.Contact.Lineage
import TextVault.Proofs.Contact.Identity
import TextVault.Proofs.Contact.Registration
import TextVault.Proofs.Contact.Scrubbing
import TextVault.Proofs.Bus.Waiting
import TextVault.Proofs.Alarm.Settling
import TextVault.Proofs.Alarm.Schedule
import TextVault.Proofs.Alarm.Life

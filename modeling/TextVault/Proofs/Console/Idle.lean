import TextVault.Console.Basic

/-
  Lines that do nothing.

  Problem: an operator types anything, and what is no command may not touch the vault, nor may a command that
  only asks.

  Program: `Idle` lists, by the first word and those after it, the lines that have no command and those
  that only ask: unknown words, commands that lack an argument or have one that cannot be read,
  classifications and requests for the status.

  Spec: these are exactly the lines without a command and the commands that only ask (`idle_iff`). Such a line
  leaves the vault as it is and has no acts (`readLine_of_idle`). A command that sets an interval sets one of
  a minute at least (`hasInterval_of_ofWords`).
-/
namespace TextVault.Console

open Text

/-- The words that start a command. -/
def commandWords : List String :=
  ["unlock", "lock", "show", "hide", "sms", "verify", "accept-all", "timeout", "classify", "status",
    "quit", "exit"]

/-- What a line with the given first word and the given arguments is that does nothing. -/
inductive Idle : String → List (List Char) → Prop
  | unknown {word : String} {arguments : List (List Char)} :
      word ∉ commandWords → Idle word arguments
  | noSecret : Idle "unlock" []
  | noOrigin : Idle "sms" []
  /-- The switch is missing or stands neither on nor off. -/
  | noSwitch {word : String} {arguments : List (List Char)} :
      word = "verify" ∨ word = "accept-all" → arguments.head?.bind readSwitch? = none →
      Idle word arguments
  /-- The interval is missing, or it is neither off nor a number of minutes. -/
  | noInterval {arguments : List (List Char)} :
      arguments.head? ≠ some ['o', 'f', 'f'] → arguments.head?.bind readMinutes? = none →
      Idle "timeout" arguments
  | classify (arguments : List (List Char)) : Idle "classify" arguments
  | status (arguments : List (List Char)) : Idle "status" arguments

/-- A command that only asks. -/
def Command.onlyAsks : Command → Bool
  | .classify .. => true
  | .status => true
  | _ => false

/-- There is no command, or it only asks. -/
def OnlyAsks (command : Except Refusal Command) : Prop := ∀ c, command = .ok c → c.onlyAsks = true

variable {arguments : List (List Char)}

/-- A line that is no command at most says so. -/
theorem onlyAsks_error (refusal : Refusal) : OnlyAsks (.error refusal) := fun _ h => nomatch h

/-! ## Commands by their first word -/

/-- A switch in a position that cannot be read leaves the line without a command; one that can be read does
something. -/
theorem onlyAsks_ofSwitch_iff (form : Form) (command : Bool → Command)
    (hcommand : ∀ on, (command on).onlyAsks = false) :
    OnlyAsks (ofSwitch form command arguments) ↔ arguments.head?.bind readSwitch? = none := by
  cases arguments with
  | nil => exact ⟨fun _ => rfl, fun _ => onlyAsks_error _⟩
  | cons word arguments =>
    show _ ↔ readSwitch? word = none
    rw [ofSwitch]
    cases readSwitch? word with
    | none => exact ⟨fun _ => rfl, fun _ => onlyAsks_error _⟩
    | some on =>
      refine ⟨fun h => ?_, fun h => (nomatch h)⟩
      have hasks := h _ rfl
      rw [hcommand] at hasks
      nomatch hasks

/-- The timeout is left as it is unless it is turned off or given a number of minutes. -/
theorem onlyAsks_ofTimeout_iff :
    OnlyAsks (ofTimeout arguments) ↔
      arguments.head? ≠ some ['o', 'f', 'f'] ∧ arguments.head?.bind readMinutes? = none := by
  rw [ofTimeout.eq_def]
  split
  · exact ⟨fun h => (nomatch h _ rfl), fun h => absurd rfl h.1⟩
  · rename_i word _ hoff
    have hword : word ≠ ['o', 'f', 'f'] := hoff
    cases hm : readMinutes? word with
    | none => simp [hm, hword, onlyAsks_error]
    | some minutes => simp [hm, OnlyAsks, Command.onlyAsks]
  · exact ⟨fun _ => ⟨nofun, rfl⟩, fun _ => onlyAsks_error _⟩

/-- Classifying a body only answers a question, so the line is idle whether or not its arguments can be read. -/
theorem onlyAsks_ofClassify (arguments : List (List Char)) : OnlyAsks (ofClassify arguments) := by
  intro c h
  rw [ofClassify.eq_def] at h
  split at h
  · split at h
    · obtain rfl := Except.ok.inj h
      rfl
    · nomatch h
  · nomatch h

/-- **A line does nothing exactly if it has no command, or one that only asks.** -/
theorem idle_iff {word : String} : Idle word arguments ↔ OnlyAsks (Command.ofWords word arguments) := by
  constructor
  · intro h
    -- From the words of a line to its command.
    cases h with
    | unknown h =>
      rw [commandWords] at h
      simp only [List.mem_cons, List.not_mem_nil, or_false, not_or] at h
      rw [Command.ofWords.eq_def]
      split <;> first | exact onlyAsks_error _ | simp_all
    | noSecret => exact onlyAsks_error _
    | noOrigin => exact onlyAsks_error _
    | noSwitch hword h =>
      rcases hword with rfl | rfl
      · exact (onlyAsks_ofSwitch_iff .verify .verify fun _ => rfl).mpr h
      · exact (onlyAsks_ofSwitch_iff .acceptAll .acceptAll fun _ => rfl).mpr h
    | noInterval hoff h => exact onlyAsks_ofTimeout_iff.mpr ⟨hoff, h⟩
    | classify => exact onlyAsks_ofClassify arguments
    | status =>
      intro c h
      obtain rfl := Except.ok.inj h
      rfl
  · intro h
    rw [Command.ofWords.eq_def] at h
    split at h
    · split at h
      · nomatch h _ rfl
      · exact .noSecret
    · nomatch h _ rfl
    · nomatch h _ rfl
    · nomatch h _ rfl
    · split at h
      · nomatch h _ rfl
      · exact .noOrigin
    · exact .noSwitch (.inl rfl) ((onlyAsks_ofSwitch_iff _ _ fun _ => rfl).mp h)
    · exact .noSwitch (.inr rfl) ((onlyAsks_ofSwitch_iff _ _ fun _ => rfl).mp h)
    · obtain ⟨hoff, hm⟩ := onlyAsks_ofTimeout_iff.mp h
      exact .noInterval hoff hm
    · exact .classify _
    · exact .status _
    · nomatch h _ rfl
    · nomatch h _ rfl
    · refine .unknown ?_
      simp_all [commandWords]

/-! ## Lines -/

/-- **Such a line leaves the vault as it is**, has no acts, and does not end the session. -/
theorem readLine_of_idle (v : Vault) {line : List UInt8} {cs : List Char}
    (hline : Text.decode (lineContent line) = .ok cs)
    (hidle : ∀ word arguments, words cs = word :: arguments → Idle (String.ofList word) arguments) :
    ∃ said, readLine v line = (.goOn, v, [], said) := by
  rw [readLine, hline]
  simp only [Command.ofLine]
  cases hwords : words cs with
  | nil => exact ⟨_, rfl⟩
  -- The line has a command or is refused, and a command of an idle line only asks.
  | cons word arguments =>
    have hasks := idle_iff.mp (hidle word arguments hwords)
    dsimp only
    cases hcommand : Command.ofWords (String.ofList word) arguments with
    | error refusal => exact ⟨_, rfl⟩
    | ok command =>
      have honly := hasks command hcommand
      cases command with
      | classify mask status plaintext body => exact ⟨_, rfl⟩
      | status => exact ⟨_, rfl⟩
      | _ => cases honly

/-! ## Intervals -/

/-- It sets no interval of zero. -/
def Command.hasInterval : Command → Prop
  | .timeout minutes => minutes ≠ 0
  | _ => True

/-- An interval of zero minutes is not read as one. -/
theorem ne_zero_of_readMinutes {cs : List Char} {minutes : UInt64}
    (h : readMinutes? cs = some minutes) : minutes ≠ 0 := by
  have hpos : 0 < minutes := by simpa using (Option.filter_eq_some_iff.mp h).2
  rintro rfl
  exact absurd hpos (by decide)

/-- A switch that can be read makes one of two commands, so what holds of both holds of the one it makes. -/
theorem hasInterval_of_ofSwitch {form : Form} {command : Bool → Command} {c : Command}
    (h : ofSwitch form command arguments = .ok c) (hcommand : ∀ on, (command on).hasInterval) :
    c.hasInterval := by
  rw [ofSwitch.eq_def] at h
  split at h
  · split at h
    · obtain rfl := Except.ok.inj h
      exact hcommand _
    · nomatch h
  · nomatch h

/-- Turning the timeout off sets no interval, and a number of minutes that is read is not zero. -/
theorem hasInterval_of_ofTimeout {c : Command} (h : ofTimeout arguments = .ok c) : c.hasInterval := by
  rw [ofTimeout.eq_def] at h
  split at h
  · obtain rfl := Except.ok.inj h
    trivial
  · split at h
    · next hminutes =>
      obtain rfl := Except.ok.inj h
      exact ne_zero_of_readMinutes hminutes
    · nomatch h
  · nomatch h

/-- **No line sets an interval of zero.** -/
theorem hasInterval_of_ofWords {word : String} {c : Command}
    (h : Command.ofWords word arguments = .ok c) : c.hasInterval := by
  rw [Command.ofWords.eq_def] at h
  split at h
  -- Commands with arguments first; the others are made of a word alone.
  case h_6 => exact hasInterval_of_ofSwitch h fun _ => trivial
  case h_7 => exact hasInterval_of_ofSwitch h fun _ => trivial
  case h_8 => exact hasInterval_of_ofTimeout h
  case h_9 =>
    have hasks := onlyAsks_ofClassify _ c h
    cases c with
    | classify mask status plaintext body => trivial
    | status => trivial
    | _ => nomatch hasks
  all_goals
    try split at h
    all_goals
      first
      | obtain rfl := Except.ok.inj h
        trivial
      | nomatch h

end TextVault.Console

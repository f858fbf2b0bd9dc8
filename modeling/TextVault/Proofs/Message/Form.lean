import TextVault.Message.Form
import TextVault.Proofs.Json.Lawful

/-
  The forms of messages are read back.

  Spec: every type of a message with a JSON form has the law of such forms. A record has it from its fields, in
  the order in which they are written; a mailbox with no name of its own is read from the label that brings its
  value along.
-/
namespace TextVault.Message

open Json Reader

/-! ## Enumerations -/

instance : LawfulLabels Direction := ⟨by rintro ⟨⟩ <;> decide, by rintro ⟨⟩ ⟨⟩ <;> decide⟩

instance : LawfulLabels Transit := ⟨by rintro ⟨⟩ <;> decide, by rintro ⟨⟩ ⟨⟩ <;> decide⟩

instance : LawfulLabels KeyExchange := ⟨by rintro ⟨⟩ <;> decide, by rintro ⟨⟩ ⟨⟩ <;> decide⟩

instance : LawfulLabels Decryption := ⟨by rintro ⟨⟩ <;> decide, by rintro ⟨⟩ ⟨⟩ <;> decide⟩

instance : LawfulLabels AtRest := ⟨by rintro ⟨⟩ <;> decide, by rintro ⟨⟩ ⟨⟩ <;> decide⟩

instance : LawfulLabels Delivery := ⟨by rintro ⟨⟩ <;> decide, by rintro ⟨⟩ ⟨⟩ <;> decide⟩

instance : LawfulLabels Display := ⟨by rintro ⟨⟩ <;> decide, by rintro ⟨⟩ ⟨⟩ <;> decide⟩

instance : LawfulLabels Transport := ⟨by rintro ⟨⟩ <;> decide, by rintro ⟨⟩ ⟨⟩ <;> decide⟩

instance : LawfulLabels Distribution := ⟨by rintro ⟨⟩ <;> decide, by rintro ⟨⟩ ⟨⟩ <;> decide⟩

/-! ## Words -/

instance : LawfulCodec TypeMask where
  reads m := reads m.bits
  ofJson?_toJson m := by
    show (ofJson? (toJson m.bits)).map TypeMask.mk = _
    rw [ofJson?_toJson]
    rfl

instance : LawfulCodec Mailbox where
  reads
    | .inbox | .outbox | .sending | .sent | .sentFailed => choice_label rfl rfl rfl
    | .unknown value => choice_payload rfl rfl rfl (reads value)
  ofJson?_toJson
    | .inbox | .outbox | .sending | .sent | .sentFailed => rfl
    | .unknown value => by
      show (field? (.record [(Mailbox.unknownLabel, toJson value)]) Mailbox.unknownLabel).map
        Mailbox.unknown = _
      rw [field?_head]
      rfl

/-! ## Classification -/

instance : LawfulCodec Decoded where
  reads d := reads_fields (by decide) <|
    .cons (reads d.mailbox) <| .cons (reads d.direction) <| .cons (reads d.transit) <|
    .cons (reads d.keyExchange) <| .cons (reads d.decryption) <| .cons (reads d.atRest) .nil
  ofJson?_toJson _ := by
    unfold instCodecDecoded
    simp

instance : LawfulCodec Flags where
  reads _ := reads_fields (by decide) <|
    .cons (reads _) <| .cons (reads _) <| .cons (reads _) <| .cons (reads _) <| .cons (reads _) <|
    .cons (reads _) <| .cons (reads _) <| .cons (reads _) <| .cons (reads _) <| .cons (reads _) <|
    .cons (reads _) .nil
  ofJson?_toJson _ := by
    unfold instCodecFlags
    simp

instance : LawfulCodec Classification where
  reads c := reads_fields (by decide) <|
    .cons (reads c.decoded) <| .cons (reads c.flags) <| .cons (reads c.delivery) <|
    .cons (reads c.display) <| .cons (reads c.text) .nil
  ofJson?_toJson _ := by
    unfold instCodecClassification
    simp

instance : LawfulCodec Summary where
  reads s := reads_fields (by decide) <| .cons (reads s.display) <| .cons (reads s.text) .nil
  ofJson?_toJson _ := by
    unfold instCodecSummary
    simp

/-! ## The classifier's settings -/

instance : LawfulCodec StatusScale where
  reads s := reads_fields (by decide) <|
    .cons (reads s.unreported) <| .cons (reads s.pending) <| .cons (reads s.failed) .nil
  ofJson?_toJson _ := by
    unfold instCodecStatusScale
    simp

/-- The cutoffs that are listed, and the defaults of the others. -/
def StatusScale.listed (s : StatusScale) (ms : List Member) : StatusScale :=
  let d : StatusScale := {}
  { unreported := ofListed ms "none" s.unreported d.unreported
    pending := ofListed ms "pending" s.pending d.pending
    failed := ofListed ms "failed" s.failed d.failed }

/-- The cutoffs of the scale can be listed in any order, and those left out have their defaults. -/
theorem readsListings_scale : ReadsListings StatusScale StatusScale.listed := by
  intro s ms h
  have hcovers : Covers
      [Json.optional Int32 "none", Json.optional Int32 "pending", Json.optional Int32 "failed"] (membersOf s)
      [("none", toJson s.unreported), ("pending", toJson s.pending), ("failed", toJson s.failed)] :=
    .cons (reads _) (.cons (reads _) (.cons (reads _) .nil))
  refine ⟨_, reads_listing h hcovers (by decide) (by simp [Json.optional]), ?_⟩
  unfold instCodecStatusScale
  simp [StatusScale.listed]

instance : LawfulCodec FixedTexts where
  reads _ := reads_fields (by decide) <|
    .cons (reads _) <| .cons (reads _) <| .cons (reads _) <| .cons (reads _) <| .cons (reads _) <|
    .cons (reads _) <| .cons (reads _) <| .cons (reads _) <| .cons (reads _) <| .cons (reads _) .nil
  ofJson?_toJson _ := by
    unfold instCodecFixedTexts
    simp

/-! ## Records -/

instance : LawfulCodec RecordKey where
  reads k := reads_fields (by decide) <| .cons (reads k.transport) <| .cons (reads k.id) .nil
  ofJson?_toJson _ := by
    unfold instCodecRecordKey
    simp

instance : LawfulCodec Body where
  reads b := reads_fields (by decide) <| .cons (reads b.text) <| .cons (reads b.plaintext) .nil
  ofJson?_toJson _ := by
    unfold instCodecBody
    simp

end TextVault.Message

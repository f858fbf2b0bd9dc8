import TextVault.Settings.File
import TextVault.Proofs.Intake.Form
import TextVault.Proofs.Message.Form
import TextVault.Proofs.Text.Utf8

/-
  Settings in a file, whole or in part.

  Problem: an operator writes only the settings that differ, in any order, and the file may be older or newer
  than the program that reads it.

  Program: `Settings.listed` keeps the members that are listed, at the top and inside each group, and puts the
  defaults for the others.

  Spec: a file gives the settings that its members list, if they make sense, and else says what is wrong with
  them (`ofFile_of_reads`). All types with a JSON form are read back from what is written (`file_read_back`).
-/
namespace TextVault

open Json Reader Text Message Intake

instance : LawfulCodec LockPolicy where
  reads p := reads_fields (by decide) <|
    .cons (reads p.timeoutEnabled) <| .cons (reads p.timeoutMinutes) .nil
  ofJson?_toJson _ := by
    unfold instCodecLockPolicy
    simp

instance : LawfulCodec Settings where
  reads s := reads_fields (by decide) <|
    .cons (reads s.lock) <| .cons (reads s.intake) <| .cons (reads s.scale) <|
    .cons (reads s.recordCapacity) .nil
  ofJson?_toJson _ := by
    unfold instCodecSettings
    simp

/-! ## Listings -/

/-- The fields that are listed, and the defaults of the others. -/
def LockPolicy.listed (p : LockPolicy) (ms : List Member) : LockPolicy :=
  let d : LockPolicy := {}
  { timeoutEnabled := ofListed ms "timeout_enabled" p.timeoutEnabled d.timeoutEnabled
    timeoutMinutes := ofListed ms "timeout_minutes" p.timeoutMinutes d.timeoutMinutes }

theorem readsListings_lock : ReadsListings LockPolicy LockPolicy.listed := by
  intro p ms h
  have hcovers : Covers [Json.optional Bool "timeout_enabled", Json.optional UInt64 "timeout_minutes"]
      (membersOf p)
      [("timeout_enabled", toJson p.timeoutEnabled), ("timeout_minutes", toJson p.timeoutMinutes)] :=
    .cons (reads _) (.cons (reads _) .nil)
  refine ⟨_, reads_listing h hcovers (by decide) (by simp [Json.optional]), ?_⟩
  unfold instCodecLockPolicy
  simp [LockPolicy.listed]

namespace Settings

/-- What the settings are if only those members are listed, at the top and inside each group. -/
def listed (s : Settings) (lock intake scale top : List Member) : Settings :=
  let d : Settings := {}
  { lock := ofListed top "lock" (s.lock.listed lock) d.lock
    intake := ofListed top "intake" (s.intake.listed intake) d.intake
    scale := ofListed top "status" (s.scale.listed scale) d.scale
    recordCapacity := ofListed top "record_cache_capacity" s.recordCapacity d.recordCapacity }

/-- The members of the settings, with the given members in the groups. -/
def groups (s : Settings) (lock intake scale : List Member) : List Member :=
  [("lock", objectText lock), ("intake", objectText intake), ("status", objectText scale),
    ("record_cache_capacity", write (toJson s.recordCapacity))]

/-- **Listings nest**: the three groups are read from listings of their own, inside of a listing of the whole. -/
theorem reads_listed {s : Settings} {lock intake scale top : List Member}
    (hlock : Listing (membersOf s.lock) lock) (hintake : Listing (membersOf s.intake) intake)
    (hscale : Listing (membersOf s.scale) scale) (htop : Listing (s.groups lock intake scale) top) :
    ∃ j, Reads (Codec.reader Settings) (objectText top) j ∧
      ofJson? j = some (s.listed lock intake scale top) := by
  obtain ⟨jlock, hreadLock, hlock⟩ := readsListings_lock s.lock lock hlock
  obtain ⟨jintake, hreadIntake, hintake⟩ := readsListings_switches s.intake intake hintake
  obtain ⟨jscale, hreadScale, hscale⟩ := readsListings_scale s.scale scale hscale
  have hcovers : Covers
      [Json.optional LockPolicy "lock", Json.optional Switches "intake", Json.optional StatusScale "status",
        Json.optional UInt64 "record_cache_capacity"]
      (s.groups lock intake scale)
      [("lock", jlock), ("intake", jintake), ("status", jscale),
        ("record_cache_capacity", toJson s.recordCapacity)] :=
    .cons hreadLock (.cons hreadIntake (.cons hreadScale (.cons (reads _) .nil)))
  refine ⟨_, reads_listing htop hcovers (by decide) (by simp [Json.optional]), ?_⟩
  unfold instCodecSettings
  simp [fieldD_listed_cons hlock, fieldD_listed_cons hintake, fieldD_listed_cons hscale, listed]

/-! ## Files -/

/-- A file with a text that reads as settings gives these, if they make sense. -/
theorem ofFile_of_reads {s : Settings} {text : List Char} {j : Json}
    (hread : Reads (Codec.reader Settings) text j) (hj : ofJson? j = some s) :
    ofFile (some (String.ofList text).toUTF8.data.toList) = s.checked := by
  rw [ofFile, decode_toUTF8, String.toList_ofList]
  show ofText text = _
  rw [ofText, decode_of_reads hread hj]

end Settings

/-- **What is written as JSON is read back.** Every value of every type with a JSON form is read back from its
text. A file with the text of some settings gives these if they make sense, and says what is wrong with them if
not. So does a file that lists any of their members, at the top and inside the groups, in any order and among
members of other names with any value; what is not listed has its default. -/
theorem Settings.file_read_back :
    (RoundTrips Settings ∧ RoundTrips LockPolicy ∧ RoundTrips Switches ∧ RoundTrips StatusScale ∧
      RoundTrips FixedTexts ∧ RoundTrips Classification ∧ RoundTrips Flags ∧ RoundTrips Decoded ∧
      RoundTrips Mailbox ∧ RoundTrips Summary ∧ RoundTrips TypeMask ∧ RoundTrips RecordKey ∧
      RoundTrips Body ∧ RoundTrips Part ∧ RoundTrips MessageClass ∧ RoundTrips Direction ∧
      RoundTrips Transit ∧ RoundTrips KeyExchange ∧ RoundTrips Decryption ∧ RoundTrips AtRest ∧
      RoundTrips Delivery ∧ RoundTrips Display ∧ RoundTrips Transport ∧ RoundTrips Distribution) ∧
    (∀ s : Settings, ofFile (some (encode s).toUTF8.data.toList) = s.check.map fun _ => s) ∧
    ∀ (s : Settings) (lock intake scale top : List Member), Listing (membersOf s.lock) lock →
      Listing (membersOf s.intake) intake → Listing (membersOf s.scale) scale →
      Listing (s.groups lock intake scale) top →
      let s' := s.listed lock intake scale top
      ofFile (some (String.ofList (objectText top)).toUTF8.data.toList) = s'.check.map fun _ => s' := by
  refine ⟨?_, fun s => ?_, fun s lock intake scale top hlock hintake hscale htop => ?_⟩
  · simp only [roundTrips, and_self]
  · exact ofFile_of_reads (reads s) (ofJson?_toJson s)
  · obtain ⟨j, hread, hj⟩ := reads_listed hlock hintake hscale htop
    exact ofFile_of_reads hread hj

/-- The interval and one cutoff are listed, each in its group and among members that nobody knows. -/
theorem Settings.file_read_back_listing :
    let s : Settings := { lock := ⟨true, 5⟩, scale := { unreported := -7 }, recordCapacity := 12 }
    let lock : List Member := [("note", "null".toList), ("timeout_minutes", ['5'])]
    let scale : List Member := [("none", ['-', '7'])]
    let top : List Member := [("status", objectText scale), ("by", "true".toList), ("lock", objectText lock)]
    Listing (membersOf s.lock) lock ∧ Listing (membersOf s.intake) [] ∧
      Listing (membersOf s.scale) scale ∧ Listing (s.groups lock [] scale) top ∧
      ofFile (some (String.ofList (objectText top)).toUTF8.data.toList) =
        .ok { lock := ⟨false, 5⟩, scale := { unreported := -7 } } := by
  intro s lock scale top
  -- Each listing names a member once at most, and what stands under another name is a value of the grammar.
  have hlock : Listing (membersOf s.lock) lock := by
    refine ⟨by decide, by decide, fun m hm hname => ?_⟩
    rcases List.mem_cons.mp hm with rfl | hm
    · exact .nullWord
    · obtain rfl := List.mem_singleton.mp hm
      exact absurd (by decide) hname
  have hintake : Listing (membersOf s.intake) [] := ⟨nofun, by decide, nofun⟩
  have hscale : Listing (membersOf s.scale) scale := by
    refine ⟨by decide, by decide, fun m hm hname => ?_⟩
    obtain rfl := List.mem_singleton.mp hm
    exact absurd (by decide) hname
  have htop : Listing (s.groups lock [] scale) top := by
    refine ⟨by decide, by decide, fun m hm hname => ?_⟩
    rcases List.mem_cons.mp hm with rfl | hm
    · exact absurd (by decide) hname
    rcases List.mem_cons.mp hm with rfl | hm
    · exact .trueWord
    · obtain rfl := List.mem_singleton.mp hm
      exact absurd (by decide) hname
  have hfile := Settings.file_read_back.2.2 s lock [] scale top hlock hintake hscale htop
  exact ⟨hlock, hintake, hscale, htop, hfile.trans rfl⟩

end TextVault

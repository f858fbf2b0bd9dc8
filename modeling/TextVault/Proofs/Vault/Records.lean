import TextVault.Proofs.Shelf.Found
import TextVault.Proofs.Vault.Run

/-
  Which credential a record was read with.

  Problem: a record is read with the credential installed at that time and then shared by all who hold it.
  The key cache and the shelf know nothing of each other, so a record may outlive the credential it was read
  with, on the shelf as well as with its holders.

  Program: `Use` is what can be done with a vault over a store that stays as it is. `Traced` is a vault with
  what was read since its records were last forgotten, as the calls of the reader tell.

  Spec: an entry of the shelf is the latest reading of its key (`Accounted.run`). So a record is read now, with
  the credential of now, or it is held by somebody and was read with the credential of then (`read_of_run`).
  The two are the same if no credential came or went since the records were last forgotten. But withdrawing a
  credential forgets no record (`record_run_of_finds`), and then they need not be (`stale_after_eviction`).
-/
namespace TextVault.Vault

open Message

/-- What can be done with a vault and its records. -/
inductive Use where
  | op (op : Op)
  | record (key : RecordKey) (holder : Option String)
  | release (holder : String)
  | clearRecords
  | shutdown

/-- A record that was read from the store. -/
structure Reading where
  record : Shared Record
  /-- The key that was asked for. -/
  asked : RecordKey
  credential : Option Credential

/-- What was read, if the acts tell that the reader was asked. -/
def readings (found : Option (Shared Record)) (acts : List Act) : List Reading :=
  (hostCalls acts).filterMap fun
    | .read key c => found.map (⟨·, key, c⟩)
    | _ => none

theorem readings_read (found : Option (Shared Record)) (key : RecordKey) (c : Option Credential) :
    readings found [.call (.read key c)] = (found.map (⟨·, key, c⟩)).toList := by
  cases found with
  | none => rfl
  | some r => rfl

/-- A vault with what was read since its records were last forgotten, latest first. -/
structure Traced where
  vault : Vault
  past : List Reading := []

namespace Traced

variable (reader : Reader)

/-- The vault after a use, with what was read in it. Forgetting the records forgets what was read of them. -/
def step (t : Traced) : Use → Traced
  | .op op => { t with vault := (t.vault.step op).1 }
  | .record key holder =>
    let (found, vault, acts) := t.vault.record reader key holder
    { vault, past := readings found acts ++ t.past }
  | .release holder => { t with vault := t.vault.release holder }
  | .clearRecords => { vault := t.vault.clearRecords }
  | .shutdown => { vault := t.vault.shutdown.1 }

/-- Uses one after another. -/
def run (t : Traced) (uses : List Use) : Traced := uses.foldl (step reader) t

/-- The credential there is now, and with which a record would be read. -/
def credential (t : Traced) : Option Credential := t.vault.keys.credential

/-- The latest reading of a key. -/
def latest? (t : Traced) (key : RecordKey) : Option Reading :=
  t.past.find? fun x => x.record.value.key = key

variable {reader}

theorem run_append (t : Traced) (xs ys : List Use) : t.run reader (xs ++ ys) = (t.run reader xs).run reader ys :=
  List.foldl_append

variable {v w : Vault} {past : List Reading} {x : Reading} {key : RecordKey}

/-- A reading is the latest of its key until there is another. -/
theorem latest?_of_eq (h : x.record.value.key = key) : latest? ⟨v, x :: past⟩ key = some x :=
  List.find?_cons_of_pos (decide_eq_true h)

theorem latest?_of_ne (h : x.record.value.key ≠ key) : latest? ⟨v, x :: past⟩ key = latest? ⟨w, past⟩ key :=
  List.find?_cons_of_neg (Bool.eq_false_iff.mp (decide_eq_false h))

end Traced

/-! ## Asking for a record -/

variable {v : Vault} {reader : Reader} {key : RecordKey} {holder : Option String} {r : Shared Record}

/-- **What is found on the shelf is not read**, whatever credential is installed. -/
theorem record_of_finds (h : v.shelf.Finds key r) :
    v.record reader key holder =
      (some r, { v with shelf := (v.shelf.step Record.key (.get key holder)).1 }, []) := by
  rw [Shelf.step_get_of_finds h, record, Shelf.getOrLoad, h.get_eq]
  rfl

/-- **What is not found is read with the credential of now.** -/
theorem record_of_misses (h : v.shelf.Misses key) :
    v.record reader key holder =
      let done := v.shelf.step Record.key (.getOrLoad key (reader key v.keys.credential) holder)
      (done.2.value, { v with shelf := done.1 }, [.call (.read key v.keys.credential)]) := by
  rw [Shelf.step_getOrLoad_of_misses h, record, Shelf.getOrLoad, h.get_eq]
  cases reader key v.keys.credential with
  | none => rfl
  | some value => rfl

theorem shelf_step (v : Vault) (op : Op) : (v.step op).1.shelf = v.shelf := by
  cases op with
  | _ => rfl

/-- Neither the key cache nor the intake ever looks at the shelf. -/
theorem shelf_run (v : Vault) (ops : List Op) : (v.run ops).1.shelf = v.shelf := by
  induction ops generalizing v with
  | nil => rfl
  | cons op ops ih => rw [run_cons, ih, shelf_step]

/-- **Nothing that is done to the key cache or the intake withdraws a record**: what was found before is found
after it, and not read again, whatever credential is installed by then and whatever the reader would give. -/
theorem record_run_of_finds (h : v.shelf.Finds key r) (ops : List Op) :
    ((v.run ops).1.record reader key holder).1 = some r ∧
      ((v.run ops).1.record reader key holder).2.2 = [] := by
  have hfound : (v.run ops).1.shelf.Finds key r := by
    rw [shelf_run]
    exact h
  rw [record_of_finds hfound]
  exact ⟨rfl, rfl⟩

/-! ## The readings account for the shelf -/

namespace Traced

/-- Every entry is the latest reading of its key, and every reading is what the reader gives. -/
structure Accounted (reader : Reader) (t : Traced) : Prop where
  coherent : t.vault.shelf.Coherent
  latest : ∀ key r, (key, r) ∈ t.vault.shelf.cache.entries → ∃ x, t.latest? key = some x ∧ x.record = r
  read_eq : ∀ x ∈ t.past, reader x.asked x.credential = some x.record.value

variable {t : Traced}

namespace Accounted

/-- Nothing has to be accounted for in a vault without entries. -/
theorem of_empty {v : Vault} (hcoherent : v.shelf.Coherent) (hempty : v.shelf.cache.entries = []) :
    Accounted reader { vault := v } := by
  refine ⟨hcoherent, fun key r hr => ?_, fun x hx => absurd hx List.not_mem_nil⟩
  exact absurd (hempty ▸ hr) List.not_mem_nil

/-- **Asking for a record keeps the account**: what was read is the latest reading of its own key, and what
was found had an entry before. -/
theorem record (h : t.Accounted reader) (key : RecordKey) (holder : Option String) :
    (t.step reader (.record key holder)).Accounted reader := by
  rw [step]
  rcases t.vault.shelf.misses_or_finds key with hmiss | ⟨v, hfound⟩
  · have hcoherent : (t.vault.shelf.step Record.key
        (.getOrLoad key (reader key t.vault.keys.credential) holder)).1.Coherent := h.coherent.step _
    rw [record_of_misses hmiss]
    rw [Shelf.step_getOrLoad_of_misses hmiss] at hcoherent ⊢
    cases hread : reader key t.vault.keys.credential with
    | none =>
      rw [hread] at hcoherent
      refine ⟨hcoherent, fun other r hr => ?_, h.read_eq⟩
      exact h.latest other r (WeakCache.mem_others.mp hr).1
    | some value =>
      rw [hread] at hcoherent
      refine ⟨hcoherent, fun other r hr => ?_, fun x hx => ?_⟩
      · -- A record on the shelf is the one just read, or was there before under another key.
        rcases Shelf.mem_insert hr with ⟨rfl, rfl⟩ | ⟨hmem, hne⟩
        · exact ⟨_, latest?_of_eq rfl, rfl⟩
        · -- The record read is of another key, so the latest reading of this one is as before.
          obtain ⟨x, hx, hrecord⟩ := h.latest other r (WeakCache.mem_others.mp hmem).1
          refine ⟨x, ?_, hrecord⟩
          refine Eq.trans (latest?_of_ne ?_) hx
          exact hne.symm
      · rcases List.mem_cons.mp hx with rfl | hx
        · exact hread
        · exact h.read_eq x hx
  · have hcoherent : (t.vault.shelf.step Record.key (.get key holder)).1.Coherent := h.coherent.step _
    rw [record_of_finds hfound]
    refine ⟨hcoherent, fun other r hr => ?_, h.read_eq⟩
    exact h.latest other r (Shelf.mem_of_mem_get Record.key hfound hr)

/-- **Every use keeps account of the shelf**: what it puts there has just been read, and the rest is as it was. -/
theorem step (h : t.Accounted reader) (use : Use) : (t.step reader use).Accounted reader := by
  cases use with
  | op op =>
    have hshelf : (t.step reader (.op op)).vault.shelf = t.vault.shelf := shelf_step t.vault op
    exact ⟨hshelf ▸ h.coherent, hshelf ▸ h.latest, h.read_eq⟩
  | record key holder => exact h.record key holder
  | release holder =>
    have hcoherent : (t.vault.shelf.step Record.key (.release holder)).1.Coherent := h.coherent.step _
    exact ⟨hcoherent, h.latest, h.read_eq⟩
  | clearRecords =>
    have hcoherent : (t.vault.shelf.step Record.key .clear).1.Coherent := h.coherent.step _
    exact .of_empty hcoherent rfl
  | shutdown =>
    have hcoherent : (t.vault.shelf.step Record.key .clear).1.Coherent := h.coherent.step _
    exact .of_empty hcoherent rfl

/-- So does every run of uses. -/
theorem run (h : t.Accounted reader) (uses : List Use) : (t.run reader uses).Accounted reader := by
  induction uses generalizing t with
  | nil => exact h
  | cons use uses ih => exact ih (h.step use)

end Accounted

/-- From the start on, when nothing has been read. -/
theorem accounted_of_run (s : Settings) (uses : List Use) :
    (({ vault := ofSettings s } : Traced).run reader uses).Accounted reader := by
  have hcoherent : ((ofSettings s).shelf.run Record.key []).1.Coherent := Shelf.coherent_of_run _ []
  exact (Accounted.of_empty hcoherent rfl).run uses

/-! ## The credential of the readings -/

/-- What is read is read with the credential of now. -/
theorem mem_past_step (use : Use) {x : Reading} (h : x ∈ (t.step reader use).past) :
    x ∈ t.past ∨ x.credential = t.credential := by
  cases use with
  | op op => exact Or.inl h
  | release holder => exact Or.inl h
  | clearRecords => exact absurd h List.not_mem_nil
  | shutdown => exact absurd h List.not_mem_nil
  | record key holder =>
    rw [step] at h
    rcases t.vault.shelf.misses_or_finds key with hmiss | ⟨v, hfound⟩
    · -- Only a lookup in vain reads, and it reads with the credential of the moment.
      rw [record_of_misses hmiss] at h
      rcases List.mem_append.mp h with hnew | hold
      · rw [readings_read, Option.mem_toList] at hnew
        obtain ⟨r, -, rfl⟩ := Option.map_eq_some_iff.mp hnew
        exact Or.inr rfl
      · exact Or.inl hold
    · rw [record_of_finds hfound] at h
      exact Or.inl h

/-- If no credential comes or goes, all readings are with the one there is. -/
theorem credential_of_run {c : Option Credential} {uses : List Use} (hpast : ∀ x ∈ t.past, x.credential = c)
    (hsame : ∀ k, (t.run reader (uses.take k)).credential = c) :
    ∀ x ∈ (t.run reader uses).past, x.credential = c := by
  induction uses generalizing t with
  | nil => exact hpast
  | cons use uses ih =>
    refine ih (fun x hx => ?_) fun k => hsame (k + 1)
    rcases mem_past_step use hx with hold | hnow
    · exact hpast x hold
    · exact hnow.trans (hsame 0)

end Traced

/-! ## What a record was read with -/

/-- **A record is read with the credential installed now, or was read before and is still held.** In the first
case the reader is asked once, and its answer is given. In the second it is not asked: the record is what it
gave for the latest reading of the key since the records were last forgotten, with the credential installed
then. If no credential came or went since, the record is in any case one that the reader gave with the
credential of now. -/
theorem read_of_run (s : Settings) (reader : Reader) (uses : List Use) (key : RecordKey)
    (holder : Option String) :
    let start : Traced := { vault := ofSettings s }
    let t := start.run reader uses
    let answer := t.vault.record reader key holder
    (answer.2.2 = [.call (.read key t.credential)] ∧ answer.1.map (·.value) = reader key t.credential ∨
      answer.2.2 = [] ∧ ∃ x, t.latest? key = some x ∧ answer.1 = some x.record ∧
        x.record.value.key = key ∧ t.vault.shelf.Holds x.record ∧
        reader x.asked x.credential = some x.record.value) ∧
    ∀ before after r, uses = before ++ after → (start.run reader before).past = [] →
      (∀ k, (start.run reader (before ++ after.take k)).credential = t.credential) →
      answer.1 = some r → ∃ asked, reader asked t.credential = some r.value := by
  intro start t answer
  have haccounted : t.Accounted reader := Traced.accounted_of_run s uses
  rcases t.vault.shelf.misses_or_finds key with hmiss | ⟨v, hfound⟩
  · have hanswer : answer = _ := record_of_misses hmiss
    have hvalue : answer.1.map (·.value) = reader key t.credential := by
      rw [hanswer, Shelf.step_getOrLoad_of_misses hmiss]
      show _ = reader key t.vault.keys.credential
      cases reader key t.vault.keys.credential with
      | none => rfl
      | some value => rfl
    -- Nothing was found, so the answer is what the reader gives now.
    refine ⟨Or.inl ⟨?_, hvalue⟩, fun before after r _ _ _ hr => ⟨key, ?_⟩⟩
    · rw [hanswer]
      rfl
    · rw [← hvalue, hr]
      rfl
  · have hanswer : answer = _ := record_of_finds hfound
    -- What was found comes from the latest reading of the key.
    obtain ⟨x, hx, rfl⟩ := haccounted.latest key v hfound.mem
    have hmem : x ∈ t.past := List.mem_of_find?_eq_some hx
    have hkey : x.record.value.key = key := by simpa using List.find?_some hx
    refine ⟨Or.inr ⟨?_, x, hx, ?_, hkey, haccounted.coherent.holds hfound, haccounted.read_eq x hmem⟩, ?_⟩
    · rw [hanswer]
    · rw [hanswer]
    · intro before after r huses hpast hsame hr
      rw [hanswer] at hr
      obtain rfl := Option.some.inj hr
      -- All readings since the records were forgotten were with the credential of now.
      have hcredential : ∀ y ∈ ((start.run reader before).run reader after).past,
          y.credential = t.credential := by
        refine Traced.credential_of_run ?_ fun k => ?_
        · rw [hpast]
          exact fun y hy => absurd hy List.not_mem_nil
        · rw [← Traced.run_append]
          exact hsame k
      rw [← Traced.run_append, ← huses] at hcredential
      refine ⟨x.asked, ?_⟩
      rw [← hcredential x hmem]
      exact haccounted.read_eq x hmem

/-- A store that gives the text of its one message to those who have a credential. -/
def sealedReader : Reader := fun key c =>
  let body : Body := if c.isSome then ⟨"hello", true⟩ else ⟨"?TSM", false⟩
  some (.build {} key 1 ⟨20⟩ (-1) body 0 0 [] ⟨"+15550102000", none⟩)

/-- Withdrawing the credential does not withdraw a record that was read with it. As long as a view holds the
record, the vault gives it to whoever asks, with its text, though no credential is installed any more and the
reader would not give the text. -/
theorem stale_after_eviction :
    ¬ ∀ s v, start true s = .ok v → ∀ reader uses key holder r,
      let t := ({ vault := v } : Traced).run reader uses
      (t.vault.record reader key holder).1 = some r →
        ∃ asked, reader asked t.credential = some r.value := by
  intro h
  let key : RecordKey := ⟨.sms, 1⟩
  let uses : List Use := [.op (.keys (.create [1])), .op (.keys (.install ⟨0⟩)), .record key (some "view"),
    .op (.keys .evict)]
  let body : Body := ⟨"hello", true⟩
  let r : Record := .build {} key 1 ⟨20⟩ (-1) body 0 0 [] ⟨"+15550102000", none⟩
  obtain ⟨asked, hasked⟩ := h {} (ofSettings {}) rfl sealedReader uses key none ⟨1, r⟩ (by decide +kernel)
  have hbody : some ⟨"?TSM", false⟩ = some body := congrArg (Option.map Record.body) hasked
  exact absurd hbody (by decide +kernel)

end TextVault.Vault

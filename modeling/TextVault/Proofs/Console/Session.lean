import TextVault.Console.Start
import TextVault.Proofs.Console.Idle
import TextVault.Proofs.Key.Interval

/-
  Sessions at the console.

  Problem: whatever an operator types, and whenever, the secrets unlocked on the way must be gone in the end,
  and the interval that the settings demand may not be lost to a command that sets a policy.

  Program: `Happening` is what the vault sees at the console: the clock reaches a second, or a line comes.
  `session` gives the vault after some of them, as far as they go on, and the credentials unlocked by then.

  Spec: on the key cache a command is a list of operations (`keyOps`), each with an interval
  (`hasInterval_keyOps`), so what such operations keep is kept by a session (`Kept.session`). From this come
  the points of a session and its end (`ended_of_session`).
-/
namespace TextVault.Console

open Text

/-! ## Commands as operations of the key cache -/

/-- The command of a line, if the line is text and has one. -/
def commandOf? (line : List UInt8) : Option Command :=
  match Text.decode (lineContent line) with
  | .ok cs => (Command.ofLine cs).toOption.join
  | .error _ => none

/-- What a command does to the key cache. -/
def keyOps (k : KeyCache) : Command → List KeyCache.Op
  | .unlock secret =>
    let bytes := secret.toUTF8.toList
    [.create bytes, .install (k.createCredential bytes).1]
  | .lock => [.evict]
  | .showSurface => [.showSurface]
  | .hideSurface => [.hideSurface]
  | .timeoutOff => [.setPolicy k.policy.off]
  | .timeout minutes => [.setPolicy (.after minutes)]
  | _ => []

/-- The credential that a command unlocks. -/
def unlockedBy (k : KeyCache) : Command → Option Credential
  | .unlock secret => some (k.createCredential secret.toUTF8.toList).1
  | _ => none

/-- A command does nothing to the key cache but its operations. -/
theorem keys_react (v : Vault) (command : Command) :
    (react v command).1.keys = (v.keys.run (keyOps v.keys command)).1 := by
  cases command <;> rfl

/-- A credential is whole when it is made, so an unlock is never refused. -/
theorem isScrubbed_createCredential (k : KeyCache) (bytes : List UInt8) :
    (k.createCredential bytes).2.ring.isScrubbed (k.createCredential bytes).1 = false := by
  simp [KeyCache.createCredential, Keyring.create, Keyring.isScrubbed, Keyring.bytes?]

/-- A credential just made is not refused. -/
theorem accepted_keyOps (k : KeyCache) (command : Command) :
    k.accepted (keyOps k command) = (unlockedBy k command).toList := by
  cases command with
  | unlock secret =>
    show (if (k.createCredential secret.toUTF8.toList).2.ring.isScrubbed _ then none
      else some (k.createCredential secret.toUTF8.toList).1).toList ++ [] = _
    rw [isScrubbed_createCredential]
    rfl
  | _ => rfl

/-- No command takes the interval away, if there is one before. Turning the timeout off keeps the number of
minutes. -/
theorem hasInterval_keyOps {k : KeyCache} (hk : k.policy.timeoutMinutes ≠ 0) {command : Command}
    (h : command.hasInterval) : ∀ op ∈ keyOps k command, op.hasInterval := by
  intro op hop
  cases command with
  | unlock secret =>
    rcases List.mem_cons.mp hop with rfl | hop
    · trivial
    · rw [List.mem_singleton.mp hop]
      trivial
  -- The interval of the policy that is turned off is the one there was.
  | timeoutOff =>
    rw [List.mem_singleton.mp hop]
    exact hk
  | timeout minutes =>
    rw [List.mem_singleton.mp hop]
    exact h
  | lock | showSurface | hideSurface =>
    rw [List.mem_singleton.mp hop]
    trivial
  | _ => nomatch hop

/-- Whatever a line says, it sets no policy without an interval. -/
theorem hasInterval_of_commandOf {line : List UInt8} {command : Command}
    (h : commandOf? line = some command) : command.hasInterval := by
  rw [commandOf?.eq_def] at h
  split at h
  · next cs _ =>
    rw [Command.ofLine] at h
    cases hwords : words cs with
    | nil =>
      rw [hwords] at h
      cases h
    | cons word arguments =>
      rw [hwords] at h
      dsimp only at h
      cases hc : Command.ofWords (String.ofList word) arguments with
      | error refusal =>
        rw [hc] at h
        cases h
      | ok c =>
        rw [hc] at h
        obtain rfl := Option.some.inj h
        exact hasInterval_of_ofWords hc
  · cases h

/-! ## Happenings -/

/-- What a vault sees at the console. -/
inductive Happening where
  /-- The clock of the vault reaches a second. -/
  | second (n : Nat)
  /-- A line, in bytes with its end. -/
  | line (bytes : List UInt8)
  deriving DecidableEq, Repr

namespace Happening

/-- What follows, and the vault then. -/
def reach (v : Vault) : Happening → Outcome × Vault
  | second n => (.goOn, (passTime v n).1)
  | line bytes => ((readLine v bytes).1, (readLine v bytes).2.1)

/-- What a happening does to the key cache. -/
def keyOps (k : KeyCache) : Happening → List KeyCache.Op
  | second n => [.advance (k.clock.ticks n - k.clock.now)]
  | line bytes => (commandOf? bytes).elim [] (Console.keyOps k)

/-- The credential that a happening unlocks. -/
def unlocks? (k : KeyCache) : Happening → Option Credential
  | second _ => none
  | line bytes => (commandOf? bytes).bind (unlockedBy k)

theorem keys_reach (v : Vault) (h : Happening) :
    (h.reach v).2.keys = (v.keys.run (h.keyOps v.keys)).1 := by
  cases h with
  | second n => rfl
  | line bytes =>
    show (readLine v bytes).2.1.keys = (v.keys.run ((commandOf? bytes).elim [] _)).1
    rw [readLine, commandOf?]
    cases Text.decode (lineContent bytes) with
    | error fault => rfl
    | ok cs =>
      dsimp only
      cases Command.ofLine cs with
      | error refusal => rfl
      | ok command =>
        -- Quitting leaves the vault as it is; every other command reaches the keys as its operations say.
        cases command with
        | none => rfl
        | some command =>
          cases command with
          | quit => rfl
          | _ => exact keys_react v _

theorem accepted_keyOps (k : KeyCache) (h : Happening) :
    k.accepted (h.keyOps k) = (h.unlocks? k).toList := by
  cases h with
  | second n => rfl
  | line bytes =>
    rw [keyOps, unlocks?]
    cases commandOf? bytes with
    | none => rfl
    | some command => exact Console.accepted_keyOps k command

/-- So no happening takes the interval away either. -/
theorem hasInterval_keyOps {k : KeyCache} (hk : k.policy.timeoutMinutes ≠ 0) (h : Happening) :
    ∀ op ∈ h.keyOps k, op.hasInterval := by
  cases h with
  | second n =>
    intro op hop
    rw [List.mem_singleton.mp hop]
    trivial
  | line bytes =>
    rw [keyOps]
    cases hcommand : commandOf? bytes with
    | none => exact fun _ hn => (nomatch hn)
    | some command => exact Console.hasInterval_keyOps hk (hasInterval_of_commandOf hcommand)

end Happening

/-! ## Sessions -/

/-- The vault after the happenings, as far as they go on, and the credentials unlocked by then. -/
def session (v : Vault) : List Happening → Vault × List Credential
  | [] => (v, [])
  | h :: hs =>
    match h.reach v with
    | (.stop, w) => (w, (h.unlocks? v.keys).toList)
    | (.goOn, w) =>
      let (w, unlocked) := session w hs
      (w, (h.unlocks? v.keys).toList ++ unlocked)

/-- A run of lines is a session of these lines that is then shut down. -/
theorem run_eq_finish_session (v : Vault) (lines : List (List UInt8)) :
    (run v lines).1 = (finish (session v (lines.map .line)).1).1 := by
  induction lines generalizing v with
  | nil => rfl
  | cons line lines ih =>
    rw [List.map_cons, run, session, Happening.reach]
    cases hline : readLine v line with
    | mk outcome rest =>
      cases outcome with
      | stop => rfl
      | goOn => exact ih rest.1

/-- What every point of a session keeps, with the credentials unlocked so far. -/
structure Kept (k : KeyCache) (unlocked : List Credential) : Prop where
  inOrder : k.InOrder
  guarded : k.Guarded unlocked
  patient : k.Patient

namespace Kept

variable {k : KeyCache} {unlocked : List Credential}

/-- A cache that starts with an interval is kept, and nothing has been unlocked yet. -/
theorem start {p : LockPolicy} (h : p.timeoutMinutes ≠ 0) (clock : Clock) : Kept (.start p clock) [] :=
  ⟨.start p clock, ⟨fun _ hn => (nomatch hn), fun _ hn => (nomatch hn)⟩, .start h clock⟩

/-- **Operations with an interval keep the cache**, as each of its three parts is kept by every such operation. -/
theorem run (h : Kept k unlocked) (ops : List KeyCache.Op) (hops : ∀ op ∈ ops, op.hasInterval) :
    Kept (k.run ops).1 (unlocked ++ k.accepted ops) := by
  induction ops generalizing k unlocked with
  | nil =>
    rw [KeyCache.accepted, List.append_nil]
    exact h
  | cons op ops ih =>
    obtain ⟨hop, hops⟩ := List.forall_mem_cons.mp hops
    rw [KeyCache.run_cons, KeyCache.accepted, ← List.append_assoc]
    exact ih ⟨h.inOrder.step op, h.guarded.step op, h.patient.step hop⟩ hops

/-- So does a happening, which is a list of such operations. -/
theorem reach {v : Vault} (hv : Kept v.keys unlocked) (h : Happening) :
    Kept (h.reach v).2.keys (unlocked ++ (h.unlocks? v.keys).toList) := by
  rw [h.keys_reach, ← h.accepted_keyOps]
  exact hv.run _ (h.hasInterval_keyOps hv.patient.minutes)

/-- **Whatever happens at the console, the vault is kept.** -/
theorem session {v : Vault} (hv : Kept v.keys unlocked) (hs : List Happening) :
    Kept (session v hs).1.keys (unlocked ++ (session v hs).2) := by
  induction hs generalizing v unlocked with
  | nil =>
    show Kept v.keys (unlocked ++ [])
    rw [List.append_nil]
    exact hv
  | cons h hs ih =>
    have hreach := hv.reach h
    rw [Console.session]
    cases hr : h.reach v with
    | mk outcome w =>
      rw [hr] at hreach
      cases outcome with
      -- What stands behind the end of the session does not happen any more.
      | stop => exact hreach
      | goOn =>
        have hrest := ih hreach
        rw [List.append_assoc] at hrest
        exact hrest

/-- **Shutting down withdraws the credential** and leaves no alarm to go off. -/
theorem finish {v : Vault} (h : Kept v.keys unlocked) :
    let keys := (finish v).1.keys
    Kept keys unlocked ∧ keys.credential = none ∧ keys.clock.live = [] := by
  intro keys
  have hkept : Kept (v.keys.run [.evict]).1 (unlocked ++ []) :=
    h.run [.evict] (List.forall_mem_singleton.mpr trivial)
  rw [List.append_nil] at hkept
  have hcredential : keys.credential = none := v.keys.credential_evict
  have halarm : keys.alarm = none := v.keys.alarm_evict
  refine ⟨hkept, hcredential, ?_⟩
  -- Nothing is held any more, and only what is held can be live.
  have hlive : keys.clock.live = (keys.alarm.map (·.id)).toList := hkept.inOrder.live
  rw [hlive, halarm]
  rfl

/-- What is not installed any more is gone. -/
theorem isGone (h : Kept k unlocked) (hnone : k.credential = none) {c : Credential}
    (hc : c ∈ unlocked) : k.ring.IsGone c :=
  (h.guarded.others c hc).resolve_left (by rw [hnone]; exact nofun)

theorem delay_pos (h : Kept k unlocked) {a : Alarm} (ha : a ∈ k.clock.alarms) : 0 < a.delay :=
  h.patient.delays a.delay (List.mem_map_of_mem ha)

end Kept

/-! ## Starting -/

/-- A vault starts exactly with settings that make sense. -/
theorem start_eq_ok_iff {s : Settings} {v : Vault} :
    Vault.start true s = .ok v ↔ s.check = .ok () ∧ v = .ofSettings s := by
  rw [Vault.start, if_pos rfl]
  cases s.check with
  | error e =>
    constructor
    · intro h
      cases h
    · rintro ⟨h, -⟩
      cases h
  | ok u =>
    constructor
    · intro h
      exact ⟨rfl, (Except.ok.inj h).symm⟩
    · rintro ⟨-, rfl⟩
      rfl

/-- A vault that starts is kept: its interval is one that the check lets pass. -/
theorem kept_of_start {s : Settings} {v : Vault} (h : Vault.start true s = .ok v) : Kept v.keys [] := by
  obtain ⟨hcheck, rfl⟩ := start_eq_ok_iff.mp h
  have hminutes : s.lock.timeoutMinutes ≠ 0 := (s.check_eq_ok_iff.mp hcheck).1
  exact .start hminutes {}

/-! ## The end -/

/-- **Sessions.** From every vault that starts, take any happenings, up to the first line that ends the
session. There is an interval then, and after shutting down, and no alarm was ever armed without a delay. A
line that does nothing leaves the vault as it is, without any act. After shutting down no credential is
installed, those unlocked in the session are scrubbed, no alarm is live, and the cache of records is empty.
With lines only this is where a run ends. -/
theorem ended_of_session {s : Settings} {v : Vault} (h : Vault.start true s = .ok v)
    (hs : List Happening) :
    let now := (session v hs).1
    let unlocked := (session v hs).2
    let ended := (finish now).1
    (∀ w ∈ [now, ended], w.keys.policy.timeoutMinutes ≠ 0 ∧ ∀ a ∈ w.keys.clock.alarms, 0 < a.delay) ∧
    (∀ line cs, Text.decode (lineContent line) = .ok cs →
      (∀ word arguments, words cs = word :: arguments → Idle (String.ofList word) arguments) →
      ∃ said, readLine now line = (.goOn, now, [], said)) ∧
    ended.keys.credential = none ∧
    (∀ c ∈ unlocked, ended.keys.ring.bytes? c = none ∧ ended.keys.ring.size c = 0) ∧
    ended.keys.clock.live = [] ∧
    ended.shelf.cache.size = 0 ∧
    ∀ lines, hs = lines.map .line → (run v lines).1 = ended := by
  intro now unlocked ended
  have hnow : Kept now.keys unlocked := (kept_of_start h).session hs
  obtain ⟨hended, hcredential, hlive⟩ := hnow.finish
  refine ⟨?_, fun line cs hline hidle => readLine_of_idle now hline hidle, hcredential, ?_, hlive, rfl,
    ?_⟩
  · intro w hw
    rcases List.mem_cons.mp hw with rfl | hw
    · exact ⟨hnow.patient.minutes, fun a ha => hnow.delay_pos ha⟩
    · obtain rfl := List.mem_singleton.mp hw
      exact ⟨hended.patient.minutes, fun a ha => hended.delay_pos ha⟩
  · intro c hc
    -- No credential is left, so all that were unlocked are among the gone ones.
    have hgone := hended.isGone hcredential hc
    exact ⟨hgone.bytes?, hgone.size⟩
  · rintro lines rfl
    exact run_eq_finish_session v lines

/-- Half a minute goes by after an unlock, then an interval of zero is refused and one of a minute set, and
that minute passes. -/
theorem ended_of_session_unlocked :
    let line (text : String) : Happening := .line (text.toList.map fun c => c.toNat.toUInt8)
    let hs : List Happening := [line "unlock hunter2\n", .second 30, line "timeout 0\n",
      line "timeout 1\n", .second 90, line "exit\n", line "unlock again\n"]
    let v : Vault := .ofSettings {}
    let ended := (finish (session v hs).1).1
    Vault.start true {} = .ok v ∧ (session v hs).2 = [⟨0⟩] ∧ ended.keys.ring.bytes? ⟨0⟩ = none ∧
      (session v hs).1.keys.clock.delays = [60] ∧ ended.keys.clock.live = [] := by
  intro line hs v ended
  have h : Vault.start true {} = .ok v := rfl
  obtain ⟨-, -, -, hscrubbed, hlive, -, -⟩ := ended_of_session h hs
  have hunlocked : (session v hs).2 = [⟨0⟩] := by decide
  refine ⟨h, hunlocked, (hscrubbed ⟨0⟩ ?_).1, by decide, hlive⟩
  rw [hunlocked]
  exact List.mem_singleton.mpr rfl

end TextVault.Console

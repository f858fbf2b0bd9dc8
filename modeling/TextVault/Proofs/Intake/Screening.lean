import TextVault.Intake.Verdict

/-
  What the switches and the import do to a verdict.

  Problem: the rules on a payload apply in order and the first that fits wins, so a switch may change more
  than it is there for, and a question about the import may be put too early.

  Program: `screen` goes by `exemption?`, then by `awaitedCode?`, and only then asks; `trafficVerdict` is what
  it says of a payload when the import is done.

  Spec: which of the three it goes by is told apart once (`screen_of_exempt`, `screen_of_awaited`,
  `screen_of_other`). Neither switch and no answer touches what the rules before it have settled, so each law
  compares two verdicts that go by the same rule.
-/
namespace TextVault.Intake

/-- The verdict on a payload, given the answer to the question. -/
def verdict (s : Switches) (imported : Bool) (p : Payload) : Verdict := (screen s p).resolve imported

/-- The exemptions that no switch and no import can lift. -/
def standingExemptions : List Exemption := [.empty, .ephemeral, .thirdPartyOtp, .vendorControl]

variable {s : Switches} {p : Payload} {reason : Exemption} {code : String}

/-! ## The three ways of a payload -/

/-- A payload that a rule exempts is settled, whatever the switches and the import. -/
theorem screen_of_exempt (s : Switches) (h : exemption? p = some reason) :
    screen s p = .settled (.exempt reason) := by
  rw [screen, h]

/-- A payload with a code that is waited for is settled as well. -/
theorem screen_of_awaited (h : exemption? p = none) (hcode : awaitedCode? s p.body = some code) :
    screen s p = .settled (.challenge code) := by
  rw [screen, h]
  simp only [hcode]

/-- Any other payload hangs on the import, and only then on what traffic is claimed. -/
theorem screen_of_other (h : exemption? p = none) (hcode : awaitedCode? s p.body = none) :
    screen s p = .ask fun imported =>
      if imported then trafficVerdict s p.body else .exempt .importPending := by
  rw [screen, h]
  simp only [hcode]

/-- A payload is exempted for what it is, never for the switches or the import. -/
theorem mem_standing_of_exemption (h : exemption? p = some reason) : reason ∈ standingExemptions := by
  rw [exemption?] at h
  cases horigin : p.origin? with
  | none =>
    simp only [horigin] at h
    obtain rfl := Option.some.inj h
    decide
  | some origin =>
    simp only [horigin] at h
    -- The rules are tried in turn, so each case stands behind those before it.
    by_cases hephemeral : p.messageClass.isEphemeral = true
    · rw [if_pos hephemeral] at h
      obtain rfl := Option.some.inj h
      decide
    · rw [if_neg hephemeral] at h
      by_cases hotp : Text.hasStart otpStart p.body = true
      · rw [if_pos hotp] at h
        obtain rfl := Option.some.inj h
        decide
      · rw [if_neg hotp] at h
        split at h
        · obtain rfl := Option.some.inj h
          decide
        · cases h

/-- Traffic is claimed, unless only secure traffic is and this is not. -/
theorem trafficVerdict_eq (s : Switches) (body : String) :
    trafficVerdict s body = .relevant ∨
      s.acceptAll = false ∧ trafficVerdict s body = .exempt .notSecureTraffic := by
  cases ha : s.acceptAll with
  | true => exact .inl (by rw [trafficVerdict, ha]; rfl)
  | false =>
    rw [trafficVerdict, ha]
    cases isEncrypted body || isKeyExchange body with
    | true => exact .inl rfl
    | false => exact .inr ⟨rfl, rfl⟩

/-- A code is awaited only while a registration waits for one. -/
theorem awaitedCode?_eq_some_iff {body : String} :
    awaitedCode? s body = some code ↔
      s.awaitingVerification = true ∧ challengeCode? body = some code := by
  rw [awaitedCode?]
  cases s.awaitingVerification with
  | false => simp
  | true => simp

/-! ## Exemptions -/

/-- **Nothing lifts an exemption**, and nobody is asked about it. -/
theorem verdict_of_exempt (s : Switches) (imported : Bool) (h : exemption? p = some reason) :
    reason ∈ standingExemptions ∧ verdict s imported p = .exempt reason ∧
      (screen s p).questions = 0 := by
  rw [verdict, screen_of_exempt s h]
  exact ⟨mem_standing_of_exemption h, rfl, rfl⟩

/-- Such an exemption has no other cause. -/
theorem exemption_of_verdict {imported : Bool} (hstanding : reason ∈ standingExemptions)
    (h : verdict s imported p = .exempt reason) : exemption? p = some reason := by
  rw [verdict] at h
  cases he : exemption? p with
  | some r =>
    rw [screen_of_exempt s he] at h
    exact congrArg some (Verdict.exempt.inj h)
  | none =>
    -- Where no rule exempts the payload, the exemptions that are left are not standing ones.
    exfalso
    cases hc : awaitedCode? s p.body with
    | some code =>
      rw [screen_of_awaited he hc] at h
      nomatch h
    | none =>
      rw [screen_of_other he hc] at h
      cases imported with
      | false =>
        obtain rfl := Verdict.exempt.inj h
        exact absurd hstanding (by decide)
      | true =>
        rcases trafficVerdict_eq s p.body with hclaimed | ⟨-, hleft⟩
        · nomatch hclaimed.symm.trans h
        · obtain rfl := Verdict.exempt.inj (hleft.symm.trans h)
          exact absurd hstanding (by decide)

/-! ## The switches -/

/-- **Claiming everything takes nothing away.** -/
theorem verdict_acceptAll {imported : Bool}
    (h : (verdict { s with acceptAll := false } imported p).isExempt = false) :
    verdict { s with acceptAll := true } imported p =
      verdict { s with acceptAll := false } imported p := by
  rw [verdict, verdict] at *
  cases he : exemption? p with
  | some r => rw [screen_of_exempt _ he, screen_of_exempt _ he]
  | none =>
    -- Whether a code is awaited has nothing to do with what else is claimed.
    cases hoff : awaitedCode? { s with acceptAll := false } p.body with
    | some code =>
      have hon : awaitedCode? { s with acceptAll := true } p.body = some code := hoff
      rw [screen_of_awaited he hon, screen_of_awaited he hoff]
    | none =>
      have hon : awaitedCode? { s with acceptAll := true } p.body = none := hoff
      rw [screen_of_other he hoff] at h
      rw [screen_of_other he hon, screen_of_other he hoff]
      cases imported with
      | false => nomatch h
      | true =>
        -- What is claimed as secure traffic is claimed with everything else.
        rcases trafficVerdict_eq { s with acceptAll := false } p.body with hclaimed | ⟨-, hleft⟩
        · exact hclaimed.symm
        · rw [Inquiry.resolve, if_pos rfl, hleft] at h
          nomatch h

/-- **Waiting for a code changes nothing but that the code is taken.** -/
theorem verdict_awaiting (s : Switches) (imported : Bool) (p : Payload) :
    verdict { s with awaitingVerification := true } imported p =
        verdict { s with awaitingVerification := false } imported p ∨
      ∃ code, challengeCode? p.body = some code ∧
        verdict { s with awaitingVerification := true } imported p = .challenge code := by
  rw [verdict, verdict]
  cases he : exemption? p with
  | some r => exact .inl (by rw [screen_of_exempt _ he, screen_of_exempt _ he])
  | none =>
    have hoff : awaitedCode? { s with awaitingVerification := false } p.body = none := rfl
    cases hc : challengeCode? p.body with
    | some code =>
      refine .inr ⟨code, rfl, ?_⟩
      rw [screen_of_awaited he (awaitedCode?_eq_some_iff.mpr ⟨rfl, hc⟩)]
      rfl
    | none =>
      have hon : awaitedCode? { s with awaitingVerification := true } p.body = none := hc
      left
      rw [screen_of_other he hon, screen_of_other he hoff]
      rfl

/-- What makes a verdict a challenge. -/
theorem verdict_eq_challenge_iff {imported : Bool} :
    verdict s imported p = .challenge code ↔
      exemption? p = none ∧ s.awaitingVerification = true ∧ challengeCode? p.body = some code := by
  rw [verdict, ← awaitedCode?_eq_some_iff]
  cases he : exemption? p with
  | some r =>
    rw [screen_of_exempt s he]
    simp [Inquiry.resolve]
  | none =>
    cases hc : awaitedCode? s p.body with
    | some code' =>
      rw [screen_of_awaited he hc]
      simp [Inquiry.resolve]
    | none =>
      rw [screen_of_other he hc]
      cases imported with
      | false => simp [Inquiry.resolve]
      | true => rcases trafficVerdict_eq s p.body with h | ⟨-, h⟩ <;> simp [Inquiry.resolve, h]

/-! ## The import -/

/-- **Before the import nothing is claimed but codes**, and all else that the import changes is put off. -/
theorem verdict_not_imported (s : Switches) (p : Payload) :
    ((verdict s false p).isExempt = true ∨ ∃ code, verdict s false p = .challenge code) ∧
      (verdict s false p = verdict s true p ∨ verdict s false p = .exempt .importPending) := by
  rw [verdict, verdict]
  cases he : exemption? p with
  | some r =>
    rw [screen_of_exempt s he]
    exact ⟨.inl rfl, .inl rfl⟩
  | none =>
    cases hc : awaitedCode? s p.body with
    | some code =>
      rw [screen_of_awaited he hc]
      exact ⟨.inr ⟨code, rfl⟩, .inl rfl⟩
    | none =>
      rw [screen_of_other he hc]
      exact ⟨.inl rfl, .inr rfl⟩

/-- **The question is put once, and only if its answer matters.** -/
theorem questions_screen (s : Switches) (p : Payload) :
    (screen s p).questions =
      if exemption? p = none ∧
        ¬(s.awaitingVerification = true ∧ (challengeCode? p.body).isSome = true) then 1 else 0 := by
  cases he : exemption? p with
  | some r =>
    rw [screen_of_exempt s he]
    rfl
  | none =>
    cases hc : awaitedCode? s p.body with
    | some code =>
      obtain ⟨hawaiting, hcode⟩ := awaitedCode?_eq_some_iff.mp hc
      rw [screen_of_awaited he hc, hawaiting, hcode]
      rfl
    | none =>
      have hno : ¬(s.awaitingVerification = true ∧ (challengeCode? p.body).isSome = true) := by
        rintro ⟨hawaiting, hcode⟩
        obtain ⟨code, hcode⟩ := Option.isSome_iff_exists.mp hcode
        rw [awaitedCode?_eq_some_iff.mpr ⟨hawaiting, hcode⟩] at hc
        nomatch hc
      rw [screen_of_other he hc, if_pos ⟨rfl, hno⟩]
      rfl

/-! ## All of it -/

/-- **No switch does more than it is there for.** For every payload, under every setting of the switches and
whatever the answer about the import:
an exemption that stands is the verdict and nobody is asked, and such a verdict has no other cause;
a claim or a challenge made with only secure traffic claimed is made with everything claimed as well;
waiting for a code leaves the verdict as it is or makes it the challenge whose code the whole body holds,
and a challenge is one whatever is claimed and whatever the answer;
before the import the verdict is a challenge or an exemption, and differs from the one after it only by being
put off; and the question is put once to payloads that are neither exempted nor a challenge, and to no
other. -/
theorem verdict_reacts (s : Switches) (imported : Bool) (p : Payload) :
    (∀ reason, exemption? p = some reason → reason ∈ standingExemptions ∧
      verdict s imported p = .exempt reason ∧ (screen s p).questions = 0) ∧
    (∀ reason ∈ standingExemptions, verdict s imported p = .exempt reason →
      exemption? p = some reason) ∧
    ((verdict { s with acceptAll := false } imported p).isExempt = false →
      verdict { s with acceptAll := true } imported p =
        verdict { s with acceptAll := false } imported p) ∧
    (verdict { s with awaitingVerification := true } imported p =
        verdict { s with awaitingVerification := false } imported p ∨
      ∃ code, challengeCode? p.body = some code ∧
        verdict { s with awaitingVerification := true } imported p = .challenge code) ∧
    (∀ code, verdict s imported p = .challenge code →
      ∀ acceptAll answer, verdict { s with acceptAll } answer p = .challenge code) ∧
    ((verdict s false p).isExempt = true ∨ ∃ code, verdict s false p = .challenge code) ∧
    (verdict s false p = verdict s true p ∨ verdict s false p = .exempt .importPending) ∧
    (screen s p).questions =
      if exemption? p = none ∧
        ¬(s.awaitingVerification = true ∧ (challengeCode? p.body).isSome = true) then 1 else 0 := by
  refine ⟨fun reason h => verdict_of_exempt s imported h, fun reason hstanding h => ?_,
    verdict_acceptAll, verdict_awaiting s imported p, fun code h acceptAll answer => ?_,
    (verdict_not_imported s p).1, (verdict_not_imported s p).2, questions_screen s p⟩
  · exact exemption_of_verdict hstanding h
  · have hchallenge := verdict_eq_challenge_iff.mp h
    exact verdict_eq_challenge_iff.mpr hchallenge

/-- A control message of a carrier, a key exchange and a registration code. -/
theorem verdict_reacts_each :
    let control := Payload.single "12345" "//BREW:9"
    let exchange := Payload.single "+15551234567" "?TSKabc"
    let registration := Payload.single "+15551234567" "Your TextSecure verification code: 123-4567"
    let secureOnly : Switches := { acceptAll := false }
    let waiting : Switches := { awaitingVerification := true }
    exemption? control = some .vendorControl ∧
      verdict waiting false control = .exempt .vendorControl ∧
    verdict secureOnly true exchange = .relevant ∧ verdict {} true exchange = .relevant ∧
    verdict waiting true registration = .challenge "1234567" ∧
      verdict { waiting with acceptAll := false } false registration = .challenge "1234567" := by
  intro control exchange registration secureOnly waiting
  have hcontrol : exemption? control = some .vendorControl := by decide +kernel
  have hexempt : verdict waiting false control = .exempt .vendorControl := by decide +kernel
  have hexchange : verdict secureOnly true exchange = .relevant := by decide +kernel
  have hcode : verdict waiting true registration = .challenge "1234567" := by decide +kernel
  obtain ⟨hstands, honly, -⟩ := verdict_reacts waiting false control
  obtain ⟨-, -, hclaimed, -⟩ := verdict_reacts secureOnly true exchange
  obtain ⟨-, -, -, -, hwhatever, -⟩ := verdict_reacts waiting true registration
  refine ⟨honly .vendorControl (by decide) hexempt, (hstands .vendorControl hcontrol).2.1, hexchange,
    ?_,
    hcode, hwhatever "1234567" hcode false false⟩
  exact (hclaimed (by rw [show verdict _ true exchange = .relevant from hexchange]; rfl)).trans hexchange

end TextVault.Intake

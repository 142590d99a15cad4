import Mathlib.Algebra.Order.Group.Int
import Mathlib.Data.List.Count
import Voxeltoad.Billing.Period
import Voxeltoad.Lib.Run

/-!
# The login lockout

The login handler of `internal/admin/rbac.go` and its failure tracker.  An attempt asks whether its
e-mail is locked out, verifies the password, and then records the failure or clears the counter.
The tracker takes its lock for each of these on its own, and the verification in between is a slow
password hash, so any number of attempts can be between their check and their record.

`Login.State` is the clock, the tracker and the attempts in flight; a step is one critical section,
one verification, or the clock moving on.  `evaluated` is not in the source: it counts the
wrong-password verifications for an e-mail since its last window ended or one of its attempts
succeeded.  The tracker is meant to keep it at `maxLoginFailures`, and does so as long as there is
room for every attempt that passes the check (`Roomy`): what is recorded and what is still in flight
must be fewer than `maxLoginFailures` together.  The check itself looks only at what is recorded.
-/

set_option autoImplicit false

namespace Voxeltoad
namespace Login

/-- After this many failures within `lockoutWindow`, logins for the e-mail are refused. -/
def maxLoginFailures : Nat := 5

/-- Five minutes. -/
def lockoutWindow : Int := 300 * second

/-- `failCounter`. -/
structure FailCounter where
  count : Nat
  first : Int
  deriving DecidableEq, Repr

/-- The counter, unless its window has elapsed. -/
def live (now : Int) (fc : Option FailCounter) : Option FailCounter :=
  fc.filter fun fc ↦ now - fc.first ≤ lockoutWindow

/-- What looking the operator up and verifying the password comes to. -/
inductive Verification where
  /-- `GetByEmail` returned an error. -/
  | error
  /-- No operator has the e-mail, so there is no password to verify. -/
  | unknown
  | wrong
  | right
  deriving DecidableEq, Repr

/-- How far a login attempt has come. -/
inductive Attempt where
  /-- It passed the lock check. -/
  | checked (email : String)
  /-- It was not valid, and has yet to record its failure. -/
  | failed (email : String)
  /-- It was valid, and has yet to clear the counter. -/
  | verified (email : String)
  /-- It has been answered. -/
  | answered
  deriving DecidableEq, Repr

/-- The clock, the `failures` map of `rbac`, and the attempts. -/
structure State where
  now : Int
  failures : String → Option FailCounter
  attempts : List Attempt
  /-- Wrong-password verifications since the last window ended or an attempt succeeded. -/
  evaluated : String → Nat

namespace State

/-- Replace the counter of an e-mail. -/
def setFailures (st : State) (email : String) (fc : Option FailCounter) : State :=
  { st with failures := fun e ↦ if e = email then fc else st.failures e }

/-- Replace the count of an e-mail. -/
def setEvaluated (st : State) (email : String) (n : Nat) : State :=
  { st with evaluated := fun e ↦ if e = email then n else st.evaluated e }

/-- Replace the state of an attempt. -/
def setAttempt (st : State) (i : Nat) (t : Attempt) : State :=
  { st with attempts := st.attempts.set i t }

/-- The counter of the window that is running. -/
def window (st : State) (email : String) : Option FailCounter := live st.now (st.failures email)

/-- **`lockedOut`.**  A counter whose window has elapsed is deleted; where there is none, there is
nothing to delete. -/
def lockedOut (st : State) (email : String) : Bool × State :=
  match st.window email with
  | none => (false, st.setFailures email none)
  | some fc => (maxLoginFailures ≤ fc.count, st)

/-- **`recordFailure`.** -/
def recordFailure (st : State) (email : String) : State :=
  match st.window email with
  | none => st.setFailures email (some ⟨1, st.now⟩)
  | some fc => st.setFailures email (some ⟨fc.count + 1, fc.first⟩)

/-- **`clearFailures`.**  The window of the e-mail ends with it. -/
def clearFailures (st : State) (email : String) : State :=
  (st.setFailures email none).setEvaluated email 0

/-- The clock moves on; a window that elapses with it takes its count along. -/
def advance (st : State) (d : Nat) : State :=
  { st with
    now := st.now + d
    evaluated := fun e ↦
      if (st.window e).isSome ∧ live (st.now + d) (st.failures e) = none then 0
      else st.evaluated e }

end State

/-- One step. -/
inductive Op where
  | tick (d : Nat)
  /-- An attempt arrives and asks whether its e-mail is locked out. -/
  | check (email : String)
  /-- The operator is looked up and the password verified. -/
  | verify (i : Nat) (outcome : Verification)
  | record (i : Nat)
  | clear (i : Nat)
  deriving DecidableEq, Repr

/-- What a verification does to its attempt. -/
def State.verify (st : State) (i : Nat) (email : String) : Verification → State
  | .error => st.setAttempt i .answered
  | .unknown => st.setAttempt i (.failed email)
  | .wrong => (st.setAttempt i (.failed email)).setEvaluated email (st.evaluated email + 1)
  | .right => (st.setAttempt i (.verified email)).setEvaluated email 0

/-- One step of the machine.  A step that an attempt is not ready for does nothing. -/
def step (st : State) : Op → State
  | .tick d => st.advance d
  | .check email =>
    if (st.lockedOut email).1 then (st.lockedOut email).2
    else
      { (st.lockedOut email).2 with
        attempts := (st.lockedOut email).2.attempts ++ [.checked email] }
  | .verify i outcome =>
    match st.attempts[i]? with
    | some (.checked email) => st.verify i email outcome
    | _ => st
  | .record i =>
    match st.attempts[i]? with
    | some (.failed email) => (st.recordFailure email).setAttempt i .answered
    | _ => st
  | .clear i =>
    match st.attempts[i]? with
    | some (.verified email) => (st.clearFailures email).setAttempt i .answered
    | _ => st

/-- Nobody has tried to log in yet. -/
structure State.Initial (st : State) : Prop where
  failures : ∀ email, st.failures email = none
  attempts : st.attempts = []
  evaluated : ∀ email, st.evaluated email = 0

/-- **The bound**: no more wrong passwords than the limit are tried in a window. -/
def State.Bounded (st : State) : Prop := ∀ email, st.evaluated email ≤ maxLoginFailures

/-! ## Room for an attempt -/

/-- The failures recorded in the running window. -/
def State.recorded (st : State) (email : String) : Nat :=
  match st.window email with
  | none => 0
  | some fc => fc.count

/-- The attempt passed the check for the e-mail and may still record a failure. -/
def Attempt.pending (email : String) : Attempt → Bool
  | .checked e | .failed e => e = email
  | _ => false

/-- The attempt has failed for the e-mail and not recorded it yet. -/
def Attempt.unrecorded (email : String) : Attempt → Bool
  | .failed e => e = email
  | _ => false

/-- The attempts for the e-mail that passed the check and are still in flight. -/
def State.inFlight (st : State) (email : String) : Nat :=
  st.attempts.countP (Attempt.pending email)

/-- When an attempt passes the check, the failures recorded in the running window and the attempts
in flight are fewer than the limit together. -/
def Roomy (st : State) : Op → Prop
  | .check email =>
    (st.lockedOut email).1 = false →
      st.recorded email + st.inFlight email < maxLoginFailures
  | _ => True

instance (st : State) : ∀ o, Decidable (Roomy st o)
  | .check _ => inferInstanceAs (Decidable (_ = false → _ < _))
  | .tick _ | .verify _ _ | .record _ | .clear _ => .isTrue trivial

variable {st : State} {email : String}

/-! ## What the steps do to the counts -/

theorem live_some_iff {now : Int} {fc : Option FailCounter} {fc' : FailCounter} :
    live now fc = some fc' ↔ fc = some fc' ∧ now - fc'.first ≤ lockoutWindow := by
  simp [live, Option.filter_eq_some_iff]

theorem recorded_of_window {st : State} {e : String} {fc : FailCounter}
    (h : st.window e = some fc) : st.recorded e = fc.count := by
  rw [State.recorded, h]

theorem recorded_of_no_window {st : State} {e : String} (h : st.window e = none) :
    st.recorded e = 0 := by
  rw [State.recorded, h]

/-- The check changes nothing that counts: the counter it may delete was of no window. -/
theorem lockedOut_frame (st : State) (email : String) :
    (∀ e, (st.lockedOut email).2.recorded e = st.recorded e) ∧
      (st.lockedOut email).2.attempts = st.attempts ∧
      (st.lockedOut email).2.evaluated = st.evaluated := by
  rw [State.lockedOut]
  split
  · rename_i hnone
    refine ⟨fun e ↦ ?_, rfl, rfl⟩
    by_cases he : e = email
    · have hafter : (st.setFailures email none).window e = none := by
        simp [State.window, State.setFailures, he, live]
      rw [recorded_of_no_window hafter, recorded_of_no_window (he ▸ hnone)]
    · simp [State.recorded, State.window, State.setFailures, he]
  · exact ⟨fun _ ↦ rfl, rfl, rfl⟩

/-- A failure is one more in the running window, or the first of a new one. -/
theorem recorded_recordFailure (st : State) (email e : String) :
    (st.recordFailure email).recorded e = st.recorded e + if e = email then 1 else 0 := by
  have hwindow : (0 : Int) ≤ lockoutWindow := by decide
  rw [State.recordFailure]
  by_cases he : e = email
  · subst he
    rw [if_pos rfl]
    split
    · rename_i hnone
      have hafter : (st.setFailures e (some ⟨1, st.now⟩)).window e = some ⟨1, st.now⟩ := by
        simp [State.window, State.setFailures, live_some_iff, hwindow]
      rw [recorded_of_window hafter, recorded_of_no_window hnone]
    · rename_i fc hsome
      have hlive := (live_some_iff.mp hsome).2
      have hafter : (st.setFailures e (some ⟨fc.count + 1, fc.first⟩)).window e =
          some ⟨fc.count + 1, fc.first⟩ := by
        simp [State.window, State.setFailures, live_some_iff, hlive]
      rw [recorded_of_window hafter, recorded_of_window hsome]
  · rw [if_neg he]
    split <;> simp [State.recorded, State.window, State.setFailures, he]

theorem recordFailure_frame (st : State) (email : String) :
    (st.recordFailure email).attempts = st.attempts ∧
      (st.recordFailure email).evaluated = st.evaluated := by
  rw [State.recordFailure]
  split <;> exact ⟨rfl, rfl⟩

theorem recorded_clearFailures (st : State) (email e : String) :
    (st.clearFailures email).recorded e = if e = email then 0 else st.recorded e := by
  split
  · rename_i he
    refine recorded_of_no_window ?_
    simp [State.window, State.clearFailures, State.setFailures, State.setEvaluated, he, live]
  · rename_i he
    simp [State.recorded, State.window, State.clearFailures, State.setFailures,
      State.setEvaluated, he]

/-- Time only ends windows, and the count of a window ends with it. -/
theorem advance_cases (st : State) (d : Nat) (e : String) :
    (st.advance d).recorded e = st.recorded e ∧ (st.advance d).evaluated e = st.evaluated e ∨
      (st.advance d).recorded e = 0 ∧ (st.advance d).evaluated e = 0 := by
  cases hlater : live (st.now + d) (st.failures e) with
  | none =>
    have hafter : (st.advance d).recorded e = 0 := recorded_of_no_window hlater
    cases hnow : st.window e with
    | none =>
      refine .inl ⟨hafter.trans (recorded_of_no_window hnow).symm, ?_⟩
      simp [State.advance, hnow]
    | some fc => exact .inr ⟨hafter, by simp [State.advance, hnow, hlater]⟩
  | some fc =>
    obtain ⟨hfc, hrunning⟩ := live_some_iff.mp hlater
    have hnow : st.window e = some fc := live_some_iff.mpr ⟨hfc, by omega⟩
    have hafter : (st.advance d).window e = some fc := hlater
    refine .inl ⟨?_, by simp [State.advance, hlater]⟩
    rw [recorded_of_window hafter, recorded_of_window hnow]

/-- An attempt that moves on is counted where it is now, and no longer where it was. -/
theorem countP_set {l : List Attempt} {i : Nat} {t : Attempt} (h : l[i]? = some t) (t' : Attempt)
    (p : Attempt → Bool) :
    (l.set i t').countP p + (if p t then 1 else 0) = l.countP p + if p t' then 1 else 0 := by
  obtain ⟨hi, rfl⟩ := List.getElem?_eq_some_iff.mp h
  rw [List.countP_set hi]
  by_cases hp : p l[i] = true
  · have hpos : 0 < l.countP p := List.countP_pos_iff.mpr ⟨l[i], List.getElem_mem hi, hp⟩
    simp only [hp, if_true]
    omega
  · rw [if_neg hp]
    omega

/-! ## The invariant -/

/-- The failures that are recorded or about to be cover the verifications that were made, and
together with the attempts that may still fail they stay within the limit. -/
structure Inv (st : State) : Prop where
  counted : ∀ e, st.evaluated e ≤ st.recorded e + st.attempts.countP (Attempt.unrecorded e)
  room : ∀ e, st.recorded e + st.inFlight e ≤ maxLoginFailures

theorem Inv.bounded (h : Inv st) : st.Bounded := by
  intro e
  have hcounted := h.counted e
  have hroom := h.room e
  have hle : st.attempts.countP (Attempt.unrecorded e) ≤ st.inFlight e := by
    refine List.countP_mono_left fun t _ ht ↦ ?_
    cases t with
    | failed e' => exact ht
    | checked | verified | answered => cases ht
  omega

theorem State.Initial.inv (h : st.Initial) : Inv st := by
  have hrecorded : ∀ e, st.recorded e = 0 := fun e ↦
    recorded_of_no_window (by simp [State.window, h.failures, live])
  refine ⟨fun e ↦ ?_, fun e ↦ ?_⟩
  · rw [h.evaluated]
    exact Nat.zero_le _
  · simp [hrecorded, State.inFlight, h.attempts, maxLoginFailures]

theorem Inv.check (h : Inv st) (hroomy : Roomy st (.check email)) :
    Inv (step st (.check email)) := by
  obtain ⟨hrecorded, hattempts, hevaluated⟩ := lockedOut_frame st email
  rw [step]
  split
  · refine ⟨fun e ↦ ?_, fun e ↦ ?_⟩
    · rw [hevaluated, hrecorded, hattempts]
      exact h.counted e
    · rw [hrecorded, State.inFlight, hattempts]
      exact h.room e
  · rename_i hpass
    have hroom := hroomy (by simpa using hpass)
    refine ⟨fun e ↦ ?_, fun e ↦ ?_⟩
    · show (st.lockedOut email).2.evaluated e ≤ (st.lockedOut email).2.recorded e +
        ((st.lockedOut email).2.attempts ++ [Attempt.checked email]).countP (Attempt.unrecorded e)
      have hcounted := h.counted e
      rw [hevaluated, hrecorded, hattempts, List.countP_append]
      omega
    · show (st.lockedOut email).2.recorded e +
        ((st.lockedOut email).2.attempts ++ [Attempt.checked email]).countP (Attempt.pending e) ≤ _
      have hold := h.room e
      rw [hrecorded, hattempts, List.countP_append]
      rw [State.inFlight] at hold hroom
      by_cases he : email = e
      · subst he
        simp only [List.countP_singleton, Attempt.pending, decide_true, if_true]
        omega
      · simp only [List.countP_singleton, Attempt.pending, he, decide_false]
        exact hold

/-- One attempt moves on.  What is recorded for an e-mail may grow by what is no longer pending for
it, and what is counted by what is now recorded or about to be. -/
theorem Inv.move (h : Inv st) {st' : State} {i : Nat} {t t' : Attempt}
    (hi : st.attempts[i]? = some t) (hattempts : st'.attempts = st.attempts.set i t')
    (hcounted : ∀ e, st'.evaluated e = 0 ∨
      st'.evaluated e + st.recorded e + (if t.unrecorded e then 1 else 0) ≤
        st.evaluated e + st'.recorded e + if t'.unrecorded e then 1 else 0)
    (hroom : ∀ e, st'.recorded e + (if t'.pending e then 1 else 0) ≤
      st.recorded e + if t.pending e then 1 else 0) : Inv st' := by
  refine ⟨fun e ↦ ?_, fun e ↦ ?_⟩
  · have hset := countP_set hi t' (Attempt.unrecorded e)
    have hold := h.counted e
    rw [hattempts]
    rcases hcounted e with hzero | hle
    · omega
    · omega
  · have hset := countP_set hi t' (Attempt.pending e)
    have hold := h.room e
    have hle := hroom e
    rw [State.inFlight] at hold ⊢
    rw [hattempts]
    omega

theorem Inv.verify (h : Inv st) {i : Nat} (hi : st.attempts[i]? = some (.checked email))
    (outcome : Verification) : Inv (st.verify i email outcome) := by
  cases outcome with
  | error =>
    refine h.move hi rfl (fun e ↦ .inr ?_) (fun e ↦ ?_)
    · simp [State.verify, State.setAttempt, Attempt.unrecorded, State.recorded, State.window]
    · simp [State.verify, State.setAttempt, Attempt.pending, State.recorded, State.window]
  | unknown =>
    refine h.move hi rfl (fun e ↦ .inr ?_) (fun e ↦ ?_)
    · simp [State.verify, State.setAttempt, Attempt.unrecorded, State.recorded, State.window]
    · simp [State.verify, State.setAttempt, Attempt.pending, State.recorded, State.window]
  | wrong =>
    refine h.move hi rfl (fun e ↦ .inr ?_) (fun e ↦ ?_)
    · by_cases he : e = email
      · simp [State.verify, State.setAttempt, State.setEvaluated, Attempt.unrecorded,
          State.recorded, State.window, he]
        omega
      · simp [State.verify, State.setAttempt, State.setEvaluated, Attempt.unrecorded,
          State.recorded, State.window, he]
    · simp [State.verify, State.setAttempt, State.setEvaluated, Attempt.pending, State.recorded,
        State.window]
  | right =>
    refine h.move hi rfl (fun e ↦ ?_) (fun e ↦ ?_)
    · by_cases he : e = email
      · exact .inl (by simp [State.verify, State.setAttempt, State.setEvaluated, he])
      · refine .inr ?_
        simp [State.verify, State.setAttempt, State.setEvaluated, Attempt.unrecorded,
          State.recorded, State.window, he]
    · simp [State.verify, State.setAttempt, State.setEvaluated, Attempt.pending, State.recorded,
        State.window]

theorem Inv.record (h : Inv st) {i : Nat} (hi : st.attempts[i]? = some (.failed email)) :
    Inv ((st.recordFailure email).setAttempt i .answered) := by
  obtain ⟨hattempts, hevaluated⟩ := recordFailure_frame st email
  have hrecorded : ∀ e, ((st.recordFailure email).setAttempt i .answered).recorded e =
      st.recorded e + if e = email then 1 else 0 := recorded_recordFailure st email
  have hset : ((st.recordFailure email).setAttempt i .answered).attempts =
      st.attempts.set i .answered := by
    rw [State.setAttempt, hattempts]
  refine h.move hi hset (fun e ↦ .inr ?_) (fun e ↦ ?_)
  · rw [hrecorded]
    by_cases he : e = email
    · simp only [State.setAttempt, hevaluated, Attempt.unrecorded, he, decide_true, if_true,
        Bool.false_eq_true, if_false]
      omega
    · simp [State.setAttempt, hevaluated, Attempt.unrecorded, he, Ne.symm he]
  · rw [hrecorded]
    by_cases he : e = email
    · simp [Attempt.pending, he]
    · simp [Attempt.pending, he]

theorem Inv.clear (h : Inv st) {i : Nat} (hi : st.attempts[i]? = some (.verified email)) :
    Inv ((st.clearFailures email).setAttempt i .answered) := by
  have hrecorded : ∀ e, ((st.clearFailures email).setAttempt i .answered).recorded e =
      if e = email then 0 else st.recorded e := recorded_clearFailures st email
  refine h.move hi rfl (fun e ↦ ?_) (fun e ↦ ?_)
  · by_cases he : e = email
    · exact .inl (by simp [State.clearFailures, State.setAttempt, State.setEvaluated, he])
    · refine .inr ?_
      rw [hrecorded]
      simp [State.clearFailures, State.setAttempt, State.setEvaluated, State.setFailures,
        Attempt.unrecorded, he]
  · rw [hrecorded]
    split <;> simp [Attempt.pending]

/-- One step keeps the invariant, if there is room for the attempt it lets through. -/
theorem Inv.step (h : Inv st) {o : Op} (hroomy : Roomy st o) : Inv (step st o) := by
  cases o with
  | tick d =>
    refine ⟨fun e ↦ ?_, fun e ↦ ?_⟩
    · have hold := h.counted e
      show (st.advance d).evaluated e ≤ (st.advance d).recorded e + st.attempts.countP _
      rcases advance_cases st d e with ⟨hrec, hev⟩ | ⟨hrec, hev⟩ <;> omega
    · have hold := h.room e
      show (st.advance d).recorded e + st.inFlight e ≤ _
      rcases advance_cases st d e with ⟨hrec, hev⟩ | ⟨hrec, hev⟩ <;> omega
  | check email => exact h.check hroomy
  | verify i outcome =>
    rw [Login.step]
    split
    · rename_i email hi
      exact h.verify hi outcome
    · exact h
  | record i =>
    rw [Login.step]
    split
    · rename_i email hi
      exact h.record hi
    · exact h
  | clear i =>
    rw [Login.step]
    split
    · rename_i email hi
      exact h.clear hi
    · exact h

/-- **The lockout bound.**  In every run of concurrent login attempts in which every attempt that
passes the lock check finds room, at most `maxLoginFailures` wrong passwords are verified for an
e-mail before its window ends or an attempt succeeds. -/
theorem lockout_bound (h : st.Initial) (ops : List Op) (hroomy : Run.Along step Roomy st ops) :
    ∀ p ∈ Run.visited step st ops, p.Bounded :=
  fun p hp ↦ (Run.invariant_visited (fun _ _ hA hI ↦ Inv.step hI hA) hroomy h.inv p hp).bounded

/-- Nobody has tried to log in. -/
def State.sample : State := ⟨0, fun _ ↦ none, [], fun _ ↦ 0⟩

theorem State.sample_initial : State.sample.Initial := ⟨fun _ ↦ rfl, rfl, fun _ ↦ rfl⟩

/-- Seven attempts pass the check before the first of them records its failure; the other six are
verified after that, within the window. -/
def Op.burst : List Op :=
  List.replicate 7 (.check "op@x") ++ [.verify 0 .wrong, .record 0] ++
    (List.range' 1 6).map fun i ↦ .verify i .wrong

/-- **The check does not bound the verifications.** -/
theorem lockout_burst :
    (Run.run step .sample Op.burst).window "op@x" = some ⟨1, 0⟩ ∧
    (Run.run step .sample Op.burst).evaluated "op@x" = 7 ∧
    ¬ ∀ st, State.Initial st → ∀ ops, ∀ p ∈ Run.visited step st ops, p.Bounded := by
  have hcount : (Run.run step .sample Op.burst).evaluated "op@x" = 7 := by decide
  refine ⟨by decide, hcount, fun hall ↦ ?_⟩
  have hle := hall _ State.sample_initial Op.burst _ (Run.run_mem_visited ..) "op@x"
  rw [hcount] at hle
  exact absurd hle (by decide)

/-- Six attempts one after the other: five are verified, and the sixth is locked out. -/
def Op.sequential : List Op :=
  (List.range 6).flatMap fun i ↦ [.check "op@x", .verify i .wrong, .record i]

theorem lockout_bound_sample :
    (Run.run step .sample Op.sequential).evaluated "op@x" = 5 ∧
      ∀ p ∈ Run.visited step .sample Op.sequential, p.Bounded :=
  ⟨by decide, lockout_bound State.sample_initial Op.sequential (by decide)⟩

end Login
end Voxeltoad

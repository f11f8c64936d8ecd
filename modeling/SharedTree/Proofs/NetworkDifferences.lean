import Mathlib.Data.List.ReduceOption
import Mathlib.Data.Nat.Nth
import SharedTree.NetworkWatch

/-! A watcher that takes fingerprints reports every difference once. Each answer, read
against the latest fingerprint before it, has something to tell or nothing; the calls tell
exactly what there is to tell, in its order, and each of them uses up the answers as far as
the one that it reports. What is remembered goes on from call to call, also past answers
without a fingerprint. Fingerprints are taken at the ticks of the watcher's timer. -/
namespace SharedTree.NetworkPoll

/-! ## What the answers have to tell -/

/-- One of the answers; there is none once they are used up. -/
def answer (answers : List (Option Nat)) (i : Nat) : Option Nat := answers[i]?.join

/-- The latest fingerprint among the first answers. -/
def remembered (answers : List (Option Nat)) (i : Nat) : Option Nat :=
  (answers.take i).reduceOption.getLast?

/-- What an answer makes a call tell: that the watch is over if it is no fingerprint, that
there is a change if it differs from the fingerprint remembered, and else nothing. -/
def verdict (answers : List (Option Nat)) (i : Nat) : Option Bool :=
  match answer answers i, remembered answers i with
  | none, _ => some false
  | some current, some previous => if current = previous then none else some true
  | some _, none => none

/-- The answer has something to tell. -/
def Tells (answers : List (Option Nat)) (i : Nat) : Prop := (verdict answers i).isSome

instance (answers : List (Option Nat)) : DecidablePred (Tells answers) :=
  fun _ => inferInstanceAs (Decidable (_ = true))

theorem verdict_of_none {answers : List (Option Nat)} {i : Nat} (ended : answer answers i = none) :
    verdict answers i = some false := by
  rw [verdict, ended]

theorem verdict_of_some {answers : List (Option Nat)} {i current : Nat}
    (known : answer answers i = some current) :
    verdict answers i =
      if (remembered answers i).any (· ≠ current) then some true else none := by
  rw [verdict, known]
  cases remembered answers i with
  | none => rfl
  | some previous => by_cases same : current = previous <;> simp [same, eq_comm]

theorem remembered_succ (answers : List (Option Nat)) (i : Nat) :
    remembered answers (i + 1) = (answer answers i).or (remembered answers i) := by
  rw [remembered, remembered, answer, List.take_add_one, List.reduceOption_append,
    List.getLast?_append]
  rcases answers[i]? with _ | _ | current <;> rfl

/-- Used up answers never stop telling that the watch is over. -/
theorem tells_infinite (answers : List (Option Nat)) : (Set.ofPred (Tells answers)).Infinite := by
  refine Set.infinite_of_forall_exists_gt fun i => ⟨max i answers.length + 1, ?_, by omega⟩
  have ended : answer answers (max i answers.length + 1) = none := by
    rw [answer, List.getElem?_eq_none (by omega)]
    rfl
  change (verdict answers _).isSome
  rw [verdict_of_none ended]
  rfl

/-! ## One fingerprint after another -/

/-- Takes one fingerprint; tells what there is to tell of it. -/
def takeNext (w : NetworkPoll) : Option Bool × NetworkPoll :=
  match w.samples with
  | [] => (some false, { w with probes := w.probes + 1 })
  | none :: rest => (some false, { w with samples := rest, probes := w.probes + 1 })
  | some current :: rest =>
    (if w.last.any (· ≠ current) then some true else none,
      { samples := rest, last := some current, probes := w.probes + 1 })

/-- A call takes fingerprints until there is something to tell. -/
theorem changed_eq (w : NetworkPoll) :
    w.changed = match w.takeNext with
      | (some told, after) => (told, after)
      | (none, after) => after.changed := by
  obtain ⟨samples, last, probes⟩ := w
  rcases samples with _ | ⟨_ | current, rest⟩
  · rfl
  · rfl
  · cases last with
    | none => rfl
    | some previous =>
      by_cases same : previous = current <;> simp [changed, awaitChange, takeNext, same]

/-- The watcher as it is before it takes the fingerprint of that number. -/
def before (answers : List (Option Nat)) (i : Nat) : NetworkPoll where
  samples := answers.drop i
  last := remembered answers i
  probes := i

theorem takeNext_before (answers : List (Option Nat)) (i : Nat) :
    (before answers i).takeNext = (verdict answers i, before answers (i + 1)) := by
  have head : answer answers i = (answers.drop i).head?.join := by
    rw [answer, List.head?_drop]
  have tail : answers.drop (i + 1) = (answers.drop i).tail := List.tail_drop.symm
  have memory := remembered_succ answers i
  rw [before, before, tail, memory, takeNext]
  rcases left : answers.drop i with _ | ⟨_ | current, rest⟩ <;> rw [left] at head
  · rw [verdict_of_none head, head]
    rfl
  · rw [verdict_of_none head, head]
    rfl
  · rw [verdict_of_some head, head]
    rfl

theorem takeNext_shorter {w after : NetworkPoll} (silent : w.takeNext = (none, after)) :
    after.samples.length < w.samples.length := by
  obtain ⟨samples, last, probes⟩ := w
  rcases samples with _ | ⟨_ | current, rest⟩
  · simp [takeNext] at silent
  · simp [takeNext] at silent
  · simp only [takeNext, Prod.mk.injEq] at silent
    obtain ⟨-, rfl⟩ := silent
    simp

/-! ## One call after another

What calls do is fixed by what they do with one answer: a call ends there, or it goes on with
the next. A watcher calls in this way by itself and also beside its timer. -/

/-- How many answers are used up when so many of them were reported. -/
noncomputable def used (answers : List (Option Nat)) : Nat → Nat
  | 0 => 0
  | n + 1 => Nat.nth (Tells answers) n + 1

theorem count_used (answers : List (Option Nat)) (n : Nat) :
    Nat.count (Tells answers) (used answers n) = n := by
  cases n with
  | zero => exact Nat.count_zero _
  | succ n => exact Nat.count_nth_succ_of_infinite (tells_infinite answers) n

/-- Nothing is left out between one report and the next. -/
theorem not_tells_between {answers : List (Option Nat)} {n j : Nat} (above : used answers n ≤ j)
    (below : j < Nat.nth (Tells answers) n) : ¬ Tells answers j := by
  intro telling
  have later : n ≤ Nat.count (Tells answers) j :=
    count_used answers n ▸ Nat.count_monotone (Tells answers) above
  have order := (Nat.nth_le_nth (tells_infinite answers)).mpr later
  rw [Nat.nth_count telling] at order
  omega

section Calls
variable {σ : Type} {answers : List (Option Nat)} {call : σ → Bool × σ} {state : Nat → σ}
  (step : ∀ i, call (state i) = match verdict answers i with
    | some told => (told, state (i + 1))
    | none => call (state (i + 1)))
include step

/-- A call goes on past the answers that tell nothing to the next one that does. -/
theorem call_of_silent {i k : Nat} (reached : i ≤ k)
    (silent : ∀ j, i ≤ j → j < k → ¬ Tells answers j) {told : Bool}
    (tells : verdict answers k = some told) : call (state i) = (told, state (k + 1)) := by
  -- back from the answer that the call comes to, over those that it passes
  induction reached using Nat.decreasingInduction with
  | self => rw [step, tells]
  | of_succ j below ih =>
    have nothing : verdict answers j = none := by
      simpa [Tells] using silent j (Nat.le_refl j) below
    rw [step, nothing]
    exact ih fun l above => silent l (by omega)

theorem call_used (n : Nat) :
    verdict answers (Nat.nth (Tells answers) n) = some (call (state (used answers n))).1 ∧
      (call (state (used answers n))).2 = state (used answers (n + 1)) := by
  have infinite := tells_infinite answers
  have telling : Tells answers (Nat.nth (Tells answers) n) := Nat.nth_mem_of_infinite infinite n
  obtain ⟨told, tells⟩ := Option.isSome_iff_exists.mp telling
  have reached : used answers n ≤ Nat.nth (Tells answers) n :=
    (Nat.count_le_iff_le_nth infinite).mp (count_used answers n).le
  have reported := call_of_silent step reached (fun j => not_tells_between) tells
  exact ⟨by rw [reported, tells], by rw [reported]; rfl⟩

theorem iterate_call (n : Nat) :
    (fun s => (call s).2)^[n] (state 0) = state (used answers n) := by
  induction n with
  | zero => rfl
  | succ n ih => rw [Function.iterate_succ_apply', ih, (call_used step n).2]

end Calls

theorem changed_before (answers : List (Option Nat)) (i : Nat) :
    (before answers i).changed = match verdict answers i with
      | some told => (told, before answers (i + 1))
      | none => (before answers (i + 1)).changed := by
  rw [changed_eq, takeNext_before]
  cases verdict answers i <;> rfl

/-- The watcher after so many calls. -/
def afterCalls (answers : List (Option Nat)) (n : Nat) : NetworkPoll :=
  (fun w : NetworkPoll => w.changed.2)^[n] { samples := answers }

theorem afterCalls_eq (answers : List (Option Nat)) (n : Nat) :
    afterCalls answers n = before answers (used answers n) :=
  iterate_call (changed_before answers) n

/-- What the call of that number tells. -/
def toldBy (answers : List (Option Nat)) (n : Nat) : Bool := (afterCalls answers n).changed.1

theorem verdict_nth (answers : List (Option Nat)) (n : Nat) :
    verdict answers (Nat.nth (Tells answers) n) = some (toldBy answers n) := by
  rw [toldBy, afterCalls_eq]
  exact (call_used (changed_before answers) n).1

/-- What the first answers have to tell is what as many calls told as had something to. -/
theorem filterMap_verdict (answers : List (Option Nat)) (m : Nat) :
    (List.range m).filterMap (verdict answers) =
      (List.range (Nat.count (Tells answers) m)).map (toldBy answers) := by
  induction m with
  | zero => simp
  | succ m ih =>
    rw [List.range_succ, List.filterMap_append, ih]
    by_cases telling : Tells answers m
    · have told := verdict_nth answers (Nat.count (Tells answers) m)
      rw [Nat.nth_count telling] at told
      rw [Nat.count_succ, if_pos telling, List.range_succ, List.map_append]
      simp [told]
    · have nothing : verdict answers m = none := by simpa [Tells] using telling
      simp [Nat.count_succ, telling, nothing]

/-! ## The timer -/

/-- A timer is anything that can be asked how long its next tick is waited for, and what it is
after that. This one ticks at once, and from then on once in a period. -/
structure TicksEvery {τ : Type} (tick : τ → Nat × τ) (start : τ) (period : Nat) : Prop where
  atOnce : (tick start).1 = 0
  later (n : Nat) : (tick ((fun timer => (tick timer).2)^[n + 1] start)).1 = period

/-- A watcher beside its timer. -/
structure Timed (τ : Type) where
  watcher : NetworkPoll
  timer : τ
  /-- The time that has passed. -/
  clock : Nat := 0
  /-- When each of the fingerprints was taken. -/
  moments : List Nat := []

namespace Timed
variable {τ : Type} (tick : τ → Nat × τ)

/-- Waits for the next tick and takes a fingerprint. -/
def takeNext (w : Timed τ) : Option Bool × Timed τ :=
  let clock := w.clock + (tick w.timer).1
  (w.watcher.takeNext.1,
    { watcher := w.watcher.takeNext.2, timer := (tick w.timer).2, clock,
      moments := w.moments ++ [clock] })

/-- Waits for the next change, one tick after another. -/
def changed (w : Timed τ) : Bool × Timed τ :=
  match _silent : w.watcher.takeNext.1 with
  | some told => (told, (w.takeNext tick).2)
  | none => (w.takeNext tick).2.changed
termination_by w.watcher.samples.length
decreasing_by exact takeNext_shorter (Prod.ext _silent rfl)

/-- The watcher and its timer after so many calls. -/
def afterCalls (start : τ) (answers : List (Option Nat)) (n : Nat) : Timed τ :=
  (fun w : Timed τ => (w.changed tick).2)^[n] { watcher := { samples := answers }, timer := start }

/-- The watcher and its timer before the fingerprint of that number. -/
def before (start : τ) (answers : List (Option Nat)) (period i : Nat) : Timed τ where
  watcher := .before answers i
  timer := (fun timer => (tick timer).2)^[i] start
  clock := (i - 1) * period
  moments := (List.range i).map (· * period)

section Steady
variable {tick} {start : τ} {period : Nat} (steady : TicksEvery tick start period)
  (answers : List (Option Nat))
include steady

theorem takeNext_before (i : Nat) :
    ((before tick start answers period i).takeNext tick) =
      (verdict answers i, before tick start answers period (i + 1)) := by
  have clock : (i - 1) * period + (tick ((fun timer => (tick timer).2)^[i] start)).1 =
      i * period := by
    cases i with
    | zero => simpa using steady.atOnce
    | succ i => rw [steady.later, Nat.add_sub_cancel, Nat.succ_mul]
  rw [takeNext, before, before, clock, NetworkPoll.takeNext_before, List.range_succ,
    List.map_append, Function.iterate_succ_apply', Nat.add_sub_cancel]
  rfl

theorem changed_before (i : Nat) :
    (before tick start answers period i).changed tick = match verdict answers i with
      | some told => (told, before tick start answers period (i + 1))
      | none => (before tick start answers period (i + 1)).changed tick := by
  have next := takeNext_before steady answers i
  have own : (before tick start answers period i).watcher.takeNext.1 = verdict answers i :=
    congrArg Prod.fst next
  rw [changed, next]
  split <;> rename_i told <;> rw [own] at told <;> rw [told]

theorem afterCalls_eq (n : Nat) :
    afterCalls tick start answers n = before tick start answers period (used answers n) := by
  have fresh : before tick start answers period 0 =
      { watcher := { samples := answers }, timer := start } := by
    simp [before, NetworkPoll.before, remembered]
  rw [afterCalls, ← fresh]
  exact iterate_call (changed_before steady answers) n

theorem changed_afterCalls (n : Nat) :
    ((afterCalls tick start answers n).changed tick).1 = toldBy answers n := by
  have reported := (call_used (changed_before steady answers) n).1
  rw [verdict_nth, Option.some.injEq, ← afterCalls_eq steady] at reported
  exact reported.symm

end Steady

end Timed

/-- A watcher reports every difference once. The calls tell in its order all that the answers
have to tell: the call of each number tells what the answer does that is the one of that number
to tell something. That answer is the last one it uses up, and the fingerprint remembered is
the latest so far, whichever call took it. Beside a timer that ticks at once and then once in
a period, the calls tell the same, and the fingerprints are taken one period after another. -/
theorem changed_reports_differences (answers : List (Option Nat)) (n : Nat) :
    verdict answers (Nat.nth (Tells answers) n) = some (toldBy answers n) ∧
    afterCalls answers (n + 1) = before answers (Nat.nth (Tells answers) n + 1) ∧
    (List.range (n + 1)).map (toldBy answers) =
      (List.range (afterCalls answers (n + 1)).probes).filterMap (verdict answers) ∧
    ∀ (τ : Type) (tick : τ → Nat × τ) (start : τ) (period : Nat), TicksEvery tick start period →
      ((Timed.afterCalls tick start answers n).changed tick).1 = toldBy answers n ∧
      (Timed.afterCalls tick start answers (n + 1)).watcher = afterCalls answers (n + 1) ∧
      (Timed.afterCalls tick start answers (n + 1)).moments =
        (List.range (afterCalls answers (n + 1)).probes).map (· * period) ∧
      (Timed.afterCalls tick start answers (n + 1)).clock =
        ((afterCalls answers (n + 1)).probes - 1) * period ∧
      ∀ asked, wait asked = period →
        (Timed.afterCalls tick start answers (n + 1)).clock =
          (afterCalls answers (n + 1)).elapsed asked := by
  have reached : afterCalls answers (n + 1) = before answers (Nat.nth (Tells answers) n + 1) :=
    afterCalls_eq answers (n + 1)
  refine ⟨verdict_nth answers n, reached, ?_, fun τ tick start period steady =>
    ⟨Timed.changed_afterCalls steady answers n, ?_⟩⟩
  · rw [reached, before, filterMap_verdict, Nat.count_nth_succ_of_infinite (tells_infinite answers)]
  · have met : Timed.afterCalls tick start answers (n + 1) =
        Timed.before tick start answers period (Nat.nth (Tells answers) n + 1) :=
      Timed.afterCalls_eq steady answers (n + 1)
    rw [met, reached]
    refine ⟨rfl, rfl, rfl, ?_⟩
    rintro asked rfl
    rfl

/-- A timer that is due at once, and a period after each of its ticks. -/
structure Interval where
  period : Nat
  /-- The time to the next tick. -/
  due : Nat := 0

def Interval.tick (timer : Interval) : Nat × Interval :=
  (timer.due, { timer with due := timer.period })

theorem Interval.ticksEvery (period : Nat) : TicksEvery Interval.tick { period } period := by
  refine ⟨rfl, fun n => ?_⟩
  have waiting : (fun timer => (Interval.tick timer).2)^[n + 1] { period } =
      { period, due := period } := by
    induction n with
    | zero => rfl
    | succ n ih => rw [Function.iterate_succ_apply', ih]; rfl
  rw [waiting]
  rfl

/-- A fingerprint is told apart from the last one before it also where none could be taken in
between. -/
def interrupted : List (Option Nat) := [some 1, some 1, none, some 1, some 2]

theorem changed_reports_differences_interrupted :
    TicksEvery Interval.tick { period := 7 } 7 ∧
    toldBy interrupted 1 = true ∧
    afterCalls interrupted 2 = { samples := [], last := some 2, probes := 5 } ∧
    (Timed.afterCalls Interval.tick { period := 7 } interrupted 2).moments = [0, 7, 14, 21, 28] ∧
    (Timed.afterCalls Interval.tick { period := 7 } interrupted 2).clock = 28 := by
  have second : Nat.nth (Tells interrupted) 1 = 4 :=
    Nat.nth_count (show Tells interrupted 4 by decide)
  obtain ⟨told, reached, -, steady⟩ := changed_reports_differences interrupted 1
  obtain ⟨-, -, moments, clock, -⟩ := steady _ _ _ 7 (Interval.ticksEvery 7)
  rw [second] at told reached
  rw [reached] at moments clock
  exact ⟨Interval.ticksEvery 7, (Option.some.inj told).symm, reached, moments, clock⟩

end SharedTree.NetworkPoll

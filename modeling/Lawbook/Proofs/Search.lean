/-
Lawbook/Proofs/Search.lean

The search of a law for a tuple that breaks it, call by call.

A round ends badly if a value is missing or if the predicate does not hold of the values, and
`FailsOn` tells these ways apart.  `Unbroken` and `BrokenAt` say what a check comes to in all
particulars: where all rounds pass, and where the first that fails is a certain one.  This covers
the values that were drawn on the way, the state in which the host is left, the calls with their
numbers, what is logged, and the text of the report.

The text is that of the values, followed by what the generator or the predicate had to say if it
said anything (`message`).  Each of the two is cut at its end only, so the join of the two reports
cuts nothing (`fail_both_counterexample`).

Main result: `Law.check_searches`.
-/
import Lawbook.Proofs.Parts
import Lawbook.Proofs.Rounds

namespace Lawbook

open Event Run

variable {σ α : Type}

/-! ### Counting calls -/

namespace Event

/-- Whether a predicate was called. -/
def isJudgement : Event α → Bool
  | judged _ _ => true
  | _ => false

/-- How often predicates were called. -/
def judgementCount (es : List (Event α)) : Nat :=
  es.countP isJudgement

variable {es es' : List (Event α)}

/-- Draws in two parts of a run add up. -/
theorem drawCount_append : drawCount (es ++ es') = drawCount es + drawCount es' :=
  List.countP_append

/-- Calls of predicates in two parts of a run add up. -/
theorem judgementCount_append :
    judgementCount (es ++ es') = judgementCount es + judgementCount es' :=
  List.countP_append

theorem drawCount_replicate (k : GeneratorId) (i n : Nat) :
    drawCount (List.replicate n (drew k i : Event α)) = n := by
  rw [drawCount, List.countP_replicate]
  rfl

theorem judgementCount_replicate (k : GeneratorId) (i n : Nat) :
    judgementCount (List.replicate n (drew k i : Event α)) = 0 := by
  rw [judgementCount, List.countP_replicate]
  rfl

end Event

namespace Law

variable {law : Law σ α} {g : Generator σ α} {i : Nat} {values : List α} {tuples : List (List α)}

/-- A round that is judged asks for one value in each place of the law. -/
theorem drawCount_calls : drawCount (law.calls g i values) = law.arity := by
  rw [calls, drawCount_append, drawCount_replicate]
  rfl

/-- A round that is judged calls the predicate once. -/
theorem judgementCount_calls : judgementCount (law.calls g i values) = 1 := by
  rw [calls, judgementCount_append, judgementCount_replicate]
  rfl

/-- The draws of rounds that pass are the product of these rounds and the places of the law. -/
theorem drawCount_callsEach :
    drawCount (law.callsEach g i tuples) = law.arity * tuples.length := by
  induction tuples generalizing i with
  | nil => rfl
  | cons values tuples ih =>
    rw [callsEach, drawCount_append, drawCount_calls, ih, List.length_cons, Nat.mul_succ,
      Nat.add_comm]

/-- The predicate is called as often as there are rounds. -/
theorem judgementCount_callsEach :
    judgementCount (law.callsEach g i tuples) = tuples.length := by
  induction tuples generalizing i with
  | nil => rfl
  | cons values tuples ih =>
    rw [callsEach, judgementCount_append, judgementCount_calls, ih, List.length_cons, Nat.add_comm]

end Law

/-! ### The text of a failure -/

/-- A message without the blanks at its end; one that is blank says that nothing is said. -/
def Verdict.tidy (message : String) : String :=
  if Text.isBlankText message then "Unspecified failure" else Text.trimEnd message

/-- A failure reports its message, tidied. -/
theorem Verdict.fail_eq_tidy (message : String) : fail message = failure (tidy message) := by
  unfold fail tidy
  split <;> rfl

/-- A tidied message is fit to be joined with others: it is not blank and does not end with blanks.
-/
theorem Verdict.solid_tidy (message : String) : Text.Solid (tidy message) := by
  have hs := solid_fail message
  rwa [fail_eq_tidy, solid_failure] at hs

namespace Law

variable [Inspectable α] (law : Law σ α)

/-- What shows the values of a round on which a law fails. -/
def headline : List α → String
  | [] => s!"Predicate {law.name} failed with no params"
  | values =>
    s!"Predicate {law.name} failed with params {Text.listing (values.map Inspectable.inspect)}"

/-- The report on the values of a round, with what else there is to say of it. -/
def message (values : List α) (cause : Option String) : String :=
  "\n\n".intercalate (Text.trimEnd (law.headline values) :: (cause.map Verdict.tidy).toList)

/-- A headline is not blank, even if the law has a blank name and the values show as nothing. -/
theorem isBlankText_headline (values : List α) :
    Text.isBlankText (law.headline values) = false := by
  have hfixed : Text.isBlankText "Predicate " = false := by decide
  cases values with
  | nil =>
    show Text.isBlankText ("Predicate " ++ law.name ++ " failed with no params") = false
    simp only [Text.isBlankText_append, hfixed, Bool.false_and]
  | cons a values =>
    show Text.isBlankText ("Predicate " ++ law.name ++ " failed with params " ++
      Text.listing ((a :: values).map Inspectable.inspect)) = false
    simp only [Text.isBlankText_append, hfixed, Bool.false_and]

/-- A counterexample reports the values, and nothing else. -/
theorem counterexample_eq (values : List α) :
    law.counterexample values = .failure (law.message values none) := by
  have hfail : law.counterexample values = Verdict.fail (law.headline values) := by
    cases values <;> rfl
  rw [hfail, Verdict.fail_eq_failure (law.isBlankText_headline values), message, Option.map_none,
    Option.toList_none, String.intercalate_singleton]

/-- Nothing is cut where what there is to say is put behind the values. -/
theorem fail_both_counterexample (values : List α) (cause : String) :
    (Verdict.fail cause).both (law.counterexample values) =
      .failure (law.message values (some cause)) := by
  rw [counterexample_eq, Verdict.fail_eq_tidy]
  show Verdict.failure (Verdict.joinReports _ _) = _
  rw [Verdict.joinReports_eq (Verdict.solid_tidy cause)]
  simp [message]

end Law

/-! ### Rounds that fail -/

/-- What a round fails with: the generator, or the predicate on all values of the round. -/
inductive Failing where
  | draw (error : GeneratorError)
  | predicate (outcome : Except Mishap Bool)

namespace Failing

/-- What there is to say besides the values. -/
def cause : Failing → Option String
  | draw error => some error.message
  | predicate (.ok _) => none
  | predicate (.error mishap) => some mishap.full

/-- The calls of a round with some values, up to the one that fails. -/
def calls (law : Law σ α) (g : Generator σ α) (i : Nat) (values : List α) :
    Failing → List (Event α)
  | draw _ => List.replicate (values.length + 1) (.drew g.id i)
  | predicate _ => law.calls g i values

/-- What is logged of a round that fails. -/
def notice (law : Law σ α) (g : Generator σ α) (i : Nat) : Failing → Notice
  | draw error => .generatorFailed g.name law.name error
  | predicate _ => .lawViolated law.name g.name i

/-- How often the generator is asked in a round that fails with some values, the call that fails
included. -/
def draws (values : List α) : Failing → Nat
  | draw _ => values.length + 1
  | predicate _ => values.length

/-- How often the predicate is called in a round that fails. -/
def judgements : Failing → Nat
  | draw _ => 0
  | predicate _ => 1

end Failing

namespace Law

/-- A round fails on its values: on some of them if the generator fails, and else on all. -/
inductive FailsOn (law : Law σ α) (g : Generator σ α) (i : Nat) (s : σ) (values : List α) :
    Failing → σ → Prop
  | draw {u t : σ} {error : GeneratorError} : values.length < law.arity →
      Returns (g.get i) s values u → g.get i u = (.error error, t) →
      FailsOn law g i s values (.draw error) t
  | predicate {u t : σ} {outcome : Except Mishap Bool} : values.length = law.arity →
      Returns (g.get i) s values u → law.predicate values u = (outcome, t) →
      outcome ≠ .ok true → FailsOn law g i s values (.predicate outcome) t

variable {law : Law σ α} {g : Generator σ α} {i : Nat} {s t : σ} {values : List α}
variable {failing : Failing}

/-- A round that fails draws up to the value that fails, or all values if it is the predicate that
fails. -/
theorem FailsOn.drawCount_calls (hf : law.FailsOn g i s values failing t) :
    drawCount (failing.calls law g i values) = failing.draws values := by
  cases hf with
  | draw => exact drawCount_replicate ..
  | predicate hlen => rw [Failing.calls, Law.drawCount_calls, Failing.draws, hlen]

/-- The predicate is called in a round that fails exactly if all values were drawn. -/
theorem FailsOn.judgementCount_calls (hf : law.FailsOn g i s values failing t) :
    judgementCount (failing.calls law g i values) = failing.judgements := by
  cases hf with
  | draw => exact judgementCount_replicate ..
  | predicate => exact Law.judgementCount_calls

variable [Inspectable α] {verdict : Verdict} {es : List (Event α)}

/-- What a predicate that does not hold shows. -/
theorem finding_of_ne {outcome : Except Mishap Bool} (hne : outcome ≠ .ok true) :
    law.finding values outcome =
      some (.failure (law.message values (Failing.predicate outcome).cause)) := by
  cases outcome with
  | ok held =>
    cases held with
    | false => exact congrArg some (law.counterexample_eq values)
    | true => exact absurd rfl hne
  | error mishap => exact congrArg some (law.fail_both_counterexample values mishap.full)

/-- **A round breaks exactly if it fails**, and this is what it reports. -/
theorem breaks_iff : law.Breaks g i s verdict t es ↔ ∃ values failing,
    law.FailsOn g i s values failing t ∧
      verdict = .failure (law.message values failing.cause) ∧
      es = failing.calls law g i values ++ [.logged (failing.notice law g i)] := by
  constructor
  · intro hb
    cases hb with
    | @broken values u _ outcome _ hlen hret hpred hf =>
      have hne : outcome ≠ .ok true := by
        intro ho
        have hnone : law.finding values outcome = none := finding_eq_none_iff.2 ho
        cases hnone.symm.trans hf
      rw [finding_of_ne hne] at hf
      cases hf
      exact ⟨values, .predicate outcome, .predicate hlen hret hpred hne, rfl, rfl⟩
    | @cut values u _ error hlen hret he =>
      exact ⟨values, .draw error, .draw hlen hret he, law.fail_both_counterexample _ _, rfl⟩
  · rintro ⟨values, failing, hfails, rfl, rfl⟩
    cases hfails with
    | @draw u _ error hlen hret he =>
      rw [Failing.cause, ← fail_both_counterexample]
      exact .cut hlen hret he
    | predicate hlen hret hpred hne => exact .broken hlen hret hpred (finding_of_ne hne)

/-! ### The whole search -/

/-- All of `n` rounds pass on a list of tuples, one after the other, and the check succeeds. -/
structure Unbroken (law : Law σ α) (g : Generator σ α) (n : Nat) (s : σ)
    (tuples : List (List α)) (verdict : Verdict) (t : σ) (es : List (Event α)) : Prop where
  length_eq : tuples.length = n
  passed : law.PassEach g 0 s tuples t
  verdict_eq : verdict = .success
  /-- The calls are those of the rounds, from round 0 on. -/
  events_eq : es = law.callsEach g 0 tuples ++ [.logged (.lawHeld law.name g.name n)]
  drawCount_eq : drawCount es = law.arity * n
  judgementCount_eq : judgementCount es = n

/-- The round `r` is the first of `n` rounds that fails: the rounds before it pass on a list of
tuples, it fails on its values, and no call is made after that. -/
structure BrokenAt (law : Law σ α) (g : Generator σ α) (n : Nat) (s : σ) (r : Nat)
    (tuples : List (List α)) (values : List α) (failing : Failing) (verdict : Verdict) (t : σ)
    (es : List (Event α)) : Prop where
  lt : r < n
  length_eq : tuples.length = r
  failed : ∃ u, law.PassEach g 0 s tuples u ∧ law.FailsOn g r u values failing t
  /-- The report shows the values of that round, and what else there is to say. -/
  verdict_eq : verdict = .failure (law.message values failing.cause)
  events_eq : es = law.callsEach g 0 tuples ++
    (failing.calls law g r values ++ [.logged (failing.notice law g r)])
  drawCount_eq : drawCount es = law.arity * r + failing.draws values
  judgementCount_eq : judgementCount es = r + failing.judgements

variable {n r : Nat} {tuples : List (List α)} {u : σ}

omit [Inspectable α] in
/-- Rounds that all pass make a check that succeeds, with the calls of the rounds. -/
theorem unbroken_of_passEach (hn : tuples.length = n) (hp : law.PassEach g 0 s tuples t) :
    law.Unbroken g n s tuples .success t
      (law.callsEach g 0 tuples ++ [.logged (.lawHeld law.name g.name n)]) where
  length_eq := hn
  passed := hp
  verdict_eq := rfl
  events_eq := rfl
  drawCount_eq := by
    rw [drawCount_append, drawCount_callsEach, hn]
    rfl
  judgementCount_eq := by
    rw [judgementCount_append, judgementCount_callsEach, hn]
    rfl

/-- Rounds that pass and one that fails make a check that fails there, with nothing called
afterwards. -/
theorem brokenAt_of_failsOn (hn : tuples.length < n) (hp : law.PassEach g 0 s tuples u)
    (hf : law.FailsOn g tuples.length u values failing t) :
    law.BrokenAt g n s tuples.length tuples values failing
      (.failure (law.message values failing.cause)) t
      (law.callsEach g 0 tuples ++ (failing.calls law g tuples.length values ++
        [.logged (failing.notice law g tuples.length)])) where
  lt := hn
  length_eq := rfl
  failed := ⟨u, hp, hf⟩
  verdict_eq := rfl
  events_eq := rfl
  drawCount_eq := by
    rw [drawCount_append, drawCount_append, drawCount_callsEach, hf.drawCount_calls]
    rfl
  judgementCount_eq := by
    rw [judgementCount_append, judgementCount_append, judgementCount_callsEach,
      hf.judgementCount_calls]
    rfl

/-- **A check searches for the first round that fails.**  If it is not skipped, it comes to this
verdict, this state of the host and these events exactly if all rounds pass and this is what comes
of it, or if there is a first round that fails and this is what comes of that one. -/
theorem check_searches (law : Law σ α) (g : Generator σ α) (c : Config) (s : σ)
    (hc : c.skip = false) (verdict : Verdict) (t : σ) (es : List (Event α)) :
    law.check g c s = (verdict, t, es) ↔
      (∃ tuples, law.Unbroken g c.sampleSize s tuples verdict t es) ∨
        ∃ r tuples values failing,
          law.BrokenAt g c.sampleSize s r tuples values failing verdict t es := by
  constructor
  · intro hcheck
    -- each way in which a check ends is one of the two cases, or it is skipped
    have hends := law.check_ends g c s
    rw [value, final, Run.events, hcheck] at hends
    cases hends with
    | skipped hskip => rw [hc] at hskip; cases hskip
    | held _ hn hp => exact .inl ⟨_, unbroken_of_passEach hn hp⟩
    | failed _ hn hp hb =>
      obtain ⟨values, failing, hf, rfl, rfl⟩ := breaks_iff.1 hb
      exact .inr ⟨_, _, values, failing, brokenAt_of_failsOn hn hp hf⟩
  · rintro (⟨tuples, hu⟩ | ⟨r, tuples, values, failing, hb⟩)
    -- the counts say nothing that the events do not say
    · obtain ⟨hn, hp, rfl, rfl, -, -⟩ := hu
      exact check_of_ends (.held hc hn hp)
    · obtain ⟨hn, rfl, ⟨u, hp, hf⟩, rfl, rfl, -, -⟩ := hb
      exact check_of_ends (.failed hc hn hp (breaks_iff.2 ⟨values, failing, hf, rfl, rfl⟩))

end Law

/-! ### A generator that runs out of values -/

namespace Countdown

/-- Counts down to zero, and has no more values after that. -/
def countdown : Generator Nat Nat :=
  ⟨⟨0⟩, "Countdown", fun _ s =>
    match s with
    | 0 => (.error (.emptyValues "Countdown"), 0)
    | n + 1 => (.ok n, n)⟩

/-- The law that numbers fall. -/
def falling : Law Nat Nat :=
  ⟨"falling", 2, fun values => pure (values.zip values.tail |>.all fun pair => pair.2 < pair.1)⟩

def config : Config := ⟨4, false, .ambient⟩

/-- From five on, two rounds pass, and the third one misses its second value. -/
theorem falling_breaks :
    config.skip = false ∧
      falling.check countdown config 5 =
        (.failure ("Predicate falling failed with params 0\n\n" ++
            "Generator Countdown has no values to sample from"), 0,
          [.drew ⟨0⟩ 0, .drew ⟨0⟩ 0, .judged "falling" [4, 3], .drew ⟨0⟩ 1, .drew ⟨0⟩ 1,
            .judged "falling" [2, 1], .drew ⟨0⟩ 2, .drew ⟨0⟩ 2,
            .logged (.generatorFailed "Countdown" "falling" (.emptyValues "Countdown"))]) := by
  have hfirst : falling.Passes countdown 0 5 [4, 3] 3 :=
    ⟨rfl, 3, .next rfl (.next rfl (.done 3)), rfl⟩
  have hsecond : falling.Passes countdown 1 3 [2, 1] 1 :=
    ⟨rfl, 1, .next rfl (.next rfl (.done 1)), rfl⟩
  have hthird : falling.FailsOn countdown 2 1 [0] (.draw (.emptyValues "Countdown")) 0 :=
    .draw (by decide) (.next rfl (.done 0)) rfl
  refine ⟨rfl, (Law.check_searches falling countdown config 5 rfl _ 0 _).2
    (.inr ⟨2, [[4, 3], [2, 1]], [0], .draw (.emptyValues "Countdown"), ?_⟩)⟩
  exact {
    lt := by decide
    length_eq := rfl
    failed := ⟨1, .next hfirst (.next hsecond (.done 2 1)), hthird⟩
    verdict_eq := by decide +kernel
    events_eq := rfl
    drawCount_eq := rfl
    judgementCount_eq := rfl }

end Countdown

end Lawbook

/-
Lawbook/Proofs/Paired.lean

Paired runs: two runs that go side by side.

From related states, paired runs yield related results, leave related states behind, and report
related events, one by one.  Runs made of paired runs are paired, whatever the three relations are
(`Paired.bind`, `Paired.mapM`).

Here the relations say that two things differ in the texts of reports only: verdicts that agree are
both successes or both failures, events that agree are equal except for the text of a verdict, and
ledgers that agree have records for the same generators and classes, with verdicts that agree.
-/
import Lawbook.Class.Registry
import Mathlib.Data.List.Forall2

namespace Lawbook

variable {σ τ ε α α' β β' : Type}

/-! ### Runs side by side -/

namespace Run

/-- Two runs go side by side: from states related by `S` to results related by `V` and states
related by `S`, with events related by `E`. -/
def Paired (S : σ → τ → Prop) (E : ε → ε → Prop) (V : α → β → Prop) (m : Run σ ε α)
    (m' : Run τ ε β) : Prop :=
  ∀ s t, S s t → V (m.value s) (m'.value t) ∧ S (m.final s) (m'.final t) ∧
    List.Forall₂ E (m.events s) (m'.events t)

variable {S : σ → τ → Prop} {E : ε → ε → Prop} {V : α → α' → Prop} {W : β → β' → Prop}
  {m : Run σ ε α} {m' : Run τ ε α'}

/-- Runs that do nothing go side by side if their results are related: states stay related as they
are. -/
theorem paired_pure {a : α} {a' : α'} (ha : V a a') :
    Paired S E V (pure a : Run σ ε α) (pure a' : Run τ ε α') :=
  fun _ _ hs => ⟨ha, hs, .nil⟩

/-- Runs that report one event each go side by side if the two events are related. -/
theorem paired_emit {e e' : ε} (he : E e e') :
    Paired S E Eq (emit e : Run σ ε Unit) (emit e' : Run τ ε Unit) :=
  fun _ _ hs => ⟨rfl, hs, .cons he .nil⟩

/-- A run of the host alone goes side by side with itself. -/
theorem paired_host (call : StateM σ α) :
    Paired Eq E Eq (host call : Run σ ε α) (host call) := by
  rintro s _ rfl
  exact ⟨rfl, rfl, .nil⟩

/-- Paired runs can be put one after the other: what the first ones leave related is what the second
ones start from, and the events are related in both stretches. -/
theorem Paired.bind {f : α → Run σ ε β} {f' : α' → Run τ ε β'} (hm : Paired S E V m m')
    (hf : ∀ a a', V a a' → Paired S E W (f a) (f' a')) : Paired S E W (m >>= f) (m' >>= f') := by
  intro s t hs
  obtain ⟨hvalue, hfinal, hevents⟩ := hm s t hs
  obtain ⟨hvalue', hfinal', hevents'⟩ := hf _ _ hvalue _ _ hfinal
  rw [events_bind, events_bind]
  exact ⟨hvalue', hfinal', List.rel_append hevents hevents'⟩

/-- Paired runs can be put in a row, one for each member of a list. -/
theorem Paired.mapM {f : α → Run σ ε β} {f' : α → Run τ ε β'}
    (hf : ∀ a, Paired S E W (f a) (f' a)) (as : List α) :
    Paired S E (List.Forall₂ W) (as.mapM f) (as.mapM f') := by
  induction as with
  | nil => exact paired_pure .nil
  | cons a as ih =>
    rw [List.mapM_cons, List.mapM_cons]
    refine (hf a).bind fun b b' hb => ih.bind fun bs bs' hbs => ?_
    exact paired_pure (.cons hb hbs)

end Run

/-! ### Verdicts -/

namespace Verdict

/-- Both verdicts are successes, or both are failures. -/
def Agrees (v v' : Verdict) : Prop :=
  v.isSuccess = v'.isSuccess

variable {v v' w w' : Verdict} {vs vs' : List Verdict}

theorem Agrees.refl (v : Verdict) : v.Agrees v :=
  Eq.refl v.isSuccess

/-- AND goes by which verdicts are successes, not by their texts. -/
theorem Agrees.both (hv : v.Agrees v') (hw : w.Agrees w') : (v.both w).Agrees (v'.both w') := by
  unfold Agrees at *
  rw [isSuccess_both, isSuccess_both, hv, hw]

/-- A heading makes no success of a failure, and no failure of a success. -/
theorem Agrees.under (hv : v.Agrees v') (heading : String) :
    (v.under heading).Agrees (v'.under heading) := by
  unfold Agrees at *
  rw [isSuccess_under, isSuccess_under, hv]

/-- AND over a list is a success exactly if all members are, so it agrees where they do. -/
theorem agrees_all (hvs : List.Forall₂ Agrees vs vs') : (all vs).Agrees (all vs') := by
  unfold Agrees
  rw [isSuccess_all, isSuccess_all]
  induction hvs with
  | nil => rfl
  | cons hv _ ih => rw [List.all_cons, List.all_cons, hv, ih]

/-- OR over a list is a success exactly if some member is, so it agrees where they do. -/
theorem agrees_any (hvs : List.Forall₂ Agrees vs vs') : (any vs).Agrees (any vs') := by
  unfold Agrees
  rw [isSuccess_any, isSuccess_any]
  induction hvs with
  | nil => rfl
  | cons hv _ ih => rw [List.any_cons, List.any_cons, hv, ih]

end Verdict

/-! ### Events -/

namespace Event

/-- Events that are equal except for the text of a verdict. -/
inductive Agrees : Event α → Event α → Prop
  | same (e : Event α) : Agrees e e
  | closed (id : ClassId) (k : GeneratorId) {v v' : Verdict} :
      v.Agrees v' → Agrees (.closed id k v) (.closed id k v')

/-- Whether an event is a call into the host: for a value, or of a predicate. -/
def isCall : Event α → Bool
  | drew _ _ => true
  | judged _ _ => true
  | _ => false

/-- The calls among events, in order. -/
def calls (es : List (Event α)) : List (Event α) :=
  es.filter isCall

variable {es es' : List (Event α)}

/-- Calls into the host have no verdicts in them, so the calls among agreeing events are equal. -/
theorem calls_eq_of_agrees (hes : List.Forall₂ Agrees es es') : calls es = calls es' := by
  unfold calls
  induction hes with
  | nil => rfl
  | cons he _ ih =>
    cases he with
    | same e => rw [List.filter_cons, List.filter_cons, ih]
    | closed id k _ => exact ih -- the closing of a class is no call

/-- Notices name laws, classes and generators, but have no text of a verdict in them, so the notices
among agreeing events are equal. -/
theorem notices_eq_of_agrees (hes : List.Forall₂ Agrees es es') : notices es = notices es' := by
  unfold notices
  induction hes with
  | nil => rfl
  | cons he _ ih =>
    cases he with
    | same e => rw [List.filterMap_cons, List.filterMap_cons, ih]
    | closed id k _ => exact ih

end Event

/-! ### Ledgers and surveys -/

/-- The same pairs of generators and classes are recorded, with verdicts that agree. -/
def Ledger.Agrees (l l' : Ledger) : Prop :=
  ∀ k d, Option.Rel Verdict.Agrees (l.verdict? k d) (l'.verdict? k d)

namespace Ledger

variable {l l' : Ledger}

theorem Agrees.refl (l : Ledger) : l.Agrees l := by
  intro k d
  cases l.verdict? k d with
  | none => exact .none
  | some v => exact .some (Verdict.Agrees.refl v)

theorem Agrees.contains_eq (hl : l.Agrees l') (k : GeneratorId) (d : ClassId) :
    l.contains k d = l'.contains k d := by
  have hkd := hl k d
  unfold contains
  generalize l.verdict? k d = o, l'.verdict? k d = o' at hkd
  cases hkd <;> rfl

/-- Ledgers that agree still do after one record more in each, since the first record for a pair
wins in both or in neither. -/
theorem Agrees.record (hl : l.Agrees l') {v v' : Verdict} (hv : v.Agrees v') (k : GeneratorId)
    (d : ClassId) : (l.record k d v).Agrees (l'.record k d v') := by
  intro k' d'
  have hold := hl k' d'
  rw [verdict?_record, verdict?_record]
  generalize l.verdict? k' d' = o, l'.verdict? k' d' = o' at hold
  cases hold with
  | some h => exact .some h
  | none =>
    -- no record for the pair yet, so it has one now if the new one is for this pair
    rw [Option.none_or, Option.none_or]
    split
    · exact .some hv
    · exact .none

end Ledger

namespace Survey

/-- The same states of the host and the same marks, with ledgers that agree. -/
structure Agrees (x x' : Survey σ) : Prop where
  host_eq : x.host = x'.host
  ledger_agrees : x.ledger.Agrees x'.ledger
  visited_eq : x.visited = x'.visited

variable {E : Event α → Event α → Prop}

theorem arrive_paired (id : ClassId) :
    Run.Paired Agrees E Eq (Survey.arrive id : Run (Survey σ) (Event α) Bool)
      (Survey.arrive id) := by
  rintro ⟨s, l, seen⟩ ⟨_, l', _⟩ ⟨rfl, hl, rfl⟩
  unfold Run.value Run.final Run.events arrive
  dsimp only
  split
  · exact ⟨rfl, ⟨rfl, hl, rfl⟩, .nil⟩
  · exact ⟨rfl, ⟨rfl, hl, rfl⟩, .nil⟩

/-- A record that is looked up is there in both ledgers or in neither, and then the two agree. -/
theorem known_paired (k : GeneratorId) (d : ClassId) :
    Run.Paired Agrees E (Option.Rel Verdict.Agrees)
      (Survey.known k d : Run (Survey σ) (Event α) (Option Verdict)) (Survey.known k d) :=
  fun _ _ hx => ⟨hx.ledger_agrees k d, hx, .nil⟩

/-- To write agreeing verdicts down keeps surveys in agreement. -/
theorem record_paired (k : GeneratorId) (d : ClassId) {v v' : Verdict} (hv : v.Agrees v') :
    Run.Paired Agrees E Eq (Survey.record k d v : Run (Survey σ) (Event α) Unit)
      (Survey.record k d v') :=
  fun _ _ hx => ⟨rfl, ⟨hx.host_eq, hx.ledger_agrees.record hv k d, hx.visited_eq⟩, .nil⟩

/-- What goes side by side on the host alone does so during a survey: it touches neither marks nor
records. -/
theorem onHost_paired {V : β → β' → Prop} {m : Run σ (Event α) β} {m' : Run σ (Event α) β'}
    (hm : Run.Paired Eq E V m m') :
    Run.Paired Agrees E V (Survey.onHost m) (Survey.onHost m') := by
  rintro ⟨s, l, seen⟩ ⟨_, l', _⟩ ⟨rfl, hl, rfl⟩
  obtain ⟨hvalue, hfinal, hevents⟩ := hm s s rfl
  exact ⟨hvalue, ⟨hfinal, hl, rfl⟩, hevents⟩

end Survey

end Lawbook

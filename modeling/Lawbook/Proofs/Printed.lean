/-
Lawbook/Proofs/Printed.lean

Printed constraints: what the report on a constraint says.

The report is built up by joins that reverse, trim and put headings in front, at every level of the
constraint.  `Reading.printed` is a printer without any of that: a failed conjunction prints its
heading and the reports of the parts that fail, a failed disjunction prints its heading, the reports
of all parts and a last line, and parts are printed from the last to the first.  As no report ends
in a blank, the two agree (`Constraint.reported_check`).

`Reading.parts` lists what a report is made of.  The message of a law that fails is among the parts
once, or not at all where a disjunction around the law holds (`Constraint.count_read`).  So no
message is lost, repeated or cut.

Both results relate two readings of one formula (`Constraint.rel_read`).
`Desk.reports_printed` puts them together, and adds that every failure that the library makes or
records ends in a character that is no blank.
-/
import Lawbook.Proofs.Account
import Lawbook.Proofs.Formula
import Lawbook.Proofs.Parts
import Lawbook.Proofs.Rounds

namespace Lawbook

open Event

variable {κ κ' σ ω α β γ : Type}

/-! ### Solid verdicts on laws -/

/-- What each run of a series yields has a property, if all such runs yield this only. -/
theorem Run.mem_value_mapM {ε : Type} {f : β → Run σ ε γ} {P : γ → Prop}
    (hf : ∀ x s, P ((f x).value s)) (xs : List β) (s : σ) : ∀ y ∈ (xs.mapM f).value s, P y := by
  induction xs generalizing s with
  | nil => exact List.forall_mem_nil _
  | cons x xs ih =>
    rw [Run.value_mapM_cons]
    exact List.forall_mem_cons.2 ⟨hf x s, ih _⟩

namespace Law

variable [Inspectable α]

/-- The report on a counterexample can be joined with others without a change. -/
theorem solid_counterexample (law : Law σ α) (values : List α) :
    (law.counterexample values).Solid := by
  unfold counterexample
  split <;> exact Verdict.solid_fail _

/-- All that a round finds can be joined without a change: it is made by `fail`, or joined from such
reports. -/
theorem solid_of_finding {law : Law σ α} {values : List α} {r : Except Mishap Bool} {v : Verdict}
    (hf : law.finding values r = some v) : v.Solid := by
  unfold finding at hf
  split at hf
  · cases hf
  · cases hf
    exact law.solid_counterexample values
  · cases hf
    exact (Verdict.solid_fail _).both (law.solid_counterexample values)

/-- What a round reports that breaks can be joined with others without a change. -/
theorem Breaks.solid {law : Law σ α} {g : Generator σ α} {i : Nat} {s t : σ} {v : Verdict}
    {es : List (Event α)} (hb : law.Breaks g i s v t es) : v.Solid := by
  cases hb with
  | broken _ _ _ hf => exact solid_of_finding hf
  | cut _ _ _ => exact (Verdict.solid_fail _).both (law.solid_counterexample _)

/-- The check of a law ends with success, or with what a round reports. -/
theorem Ends.solid {law : Law σ α} {g : Generator σ α} {c : Config} {s t : σ} {v : Verdict}
    {es : List (Event α)} (he : law.Ends g c s v t es) : v.Solid := by
  cases he with
  | skipped _ => exact Verdict.solid_success
  | held _ _ _ => exact Verdict.solid_success
  | failed _ _ _ hb => exact hb.solid

/-- **What a law reports is solid**, whatever values, errors and crashes show in it. -/
theorem solid_check (law : Law σ α) (g : Generator σ α) (c : Config) (s : σ) :
    ((law.check g c).value s).Solid :=
  (law.check_ends g c s).solid

/-- The verdicts on several laws can be joined without a change. -/
theorem solid_checkEach (g : Generator σ α) (c : Config) (laws : List (Law σ α)) (s : σ) :
    ∀ v ∈ (checkEach g c laws).value s, v.Solid :=
  Run.mem_value_mapM (fun law s => law.solid_check g c s) laws s

end Law

/-! ### Two readings of one formula -/

namespace Constraint

/-- Two readings keep a relation between values. -/
structure Reading.Relates (R : β → γ → Prop) (m : Reading β) (m' : Reading γ) : Prop where
  all : ∀ bs cs, List.Forall₂ R bs cs → R (m.all bs) (m'.all cs)
  any : ∀ bs cs, List.Forall₂ R bs cs → R (m.any bs) (m'.any cs)
  unknown : R m.unknown m'.unknown

section Relates

variable {R : β → γ → Prop} {m : Reading β} {m' : Reading γ}

mutual

/-- Where the values of the laws are related, those of the constraint are. -/
theorem rel_read (hm : m.Relates R m') :
    ∀ (a : Constraint σ α) {bs : List β} {cs : List γ}, List.Forall₂ R bs cs →
      R (a.read m bs) (a.read m' cs)
  | obeys _, _, _, .nil => hm.unknown
  | obeys _, _, _, .cons hbc _ => hbc
  | all parts, _, _, hr => hm.all _ _ (rel_readEach hm parts hr)
  | any parts, _, _, hr => hm.any _ _ (rel_readEach hm parts hr)

theorem rel_readEach (hm : m.Relates R m') :
    ∀ (parts : List (Constraint σ α)) {bs : List β} {cs : List γ}, List.Forall₂ R bs cs →
      List.Forall₂ R (readEach m parts bs) (readEach m' parts cs)
  | [], _, _, _ => .nil
  | part :: parts, _, _, hr =>
    .cons (rel_read hm part (List.forall₂_take part.lawCount hr))
      (rel_readEach hm parts (List.forall₂_drop part.lawCount hr))

end

end Relates

/-! ### The printer -/

/-- Prints the report on a constraint from the reports on its laws; what holds has none.  A failed
conjunction prints its heading and the reports of the parts that fail, a failed disjunction its
heading, the reports of all parts and a last line; later parts come first, and there is one blank
line between. -/
def Reading.printed : Reading (Option String) where
  all := fun reports =>
    let failing := reports.filterMap id
    if failing.isEmpty then none
    else some ("\n\n".intercalate (allHeading :: failing.reverse))
  any := fun reports =>
    if none ∈ reports then none
    else some ("\n\n".intercalate
      (anyHeading :: ((reports.filterMap id).reverse ++ [Verdict.noAlternative])))
  unknown := none

/-- A heading over parts is one part more in front of them, if there are any. -/
theorem under_allHeading {parts : List String} (hp : ∀ p ∈ parts, Text.Solid p) :
    (Verdict.ofParts parts).under allHeading = .ofParts (headed allHeading parts) :=
  Verdict.under_ofParts (by decide) hp

theorem under_anyHeading {parts : List String} (hp : ∀ p ∈ parts, Text.Solid p) :
    (Verdict.ofParts parts).under anyHeading = .ofParts (headed anyHeading parts) :=
  Verdict.under_ofParts (by decide) hp

/-- A verdict is solid, and has this report. -/
def Reported (v : Verdict) (report : Option String) : Prop :=
  v.Solid ∧ v.report? = report

/-- Verdicts and what they report determine each other. -/
theorem forall₂_reported {vs : List Verdict} {reports : List (Option String)}
    (hr : List.Forall₂ Reported vs reports) :
    (∀ v ∈ vs, v.Solid) ∧ reports = vs.map Verdict.report? := by
  induction hr with
  | nil => exact ⟨List.forall_mem_nil _, rfl⟩
  | cons hv _ ih =>
    obtain ⟨hsolid, rfl⟩ := hv
    exact ⟨List.forall_mem_cons.2 ⟨hsolid, ih.1⟩, congrArg _ ih.2⟩

theorem filterMap_map_report? (vs : List Verdict) :
    (vs.map Verdict.report?).filterMap id = vs.filterMap Verdict.report? :=
  List.filterMap_map

/-- A verdict that reports nothing is a success. -/
theorem none_mem_map_report?_iff {vs : List Verdict} :
    none ∈ vs.map Verdict.report? ↔ Verdict.success ∈ vs := by
  constructor
  · intro hm
    obtain ⟨v, hv, hnone⟩ := List.mem_map.1 hm
    cases v with
    | success => exact hv
    | failure report => cases hnone
  · intro hs
    exact List.mem_map.2 ⟨_, hs, rfl⟩

/-- The printer prints what is reported. -/
theorem Reading.relates_printed : Reading.Relates Reported .report .printed where
  all := by
    intro vs reports hr
    obtain ⟨hsolid, rfl⟩ := forall₂_reported hr
    refine ⟨Verdict.solid_under (by decide) _, ?_⟩
    show ((Verdict.all vs).under allHeading).report? = _
    rw [Verdict.all_eq_ofParts hsolid, under_allHeading (Verdict.solid_of_mem_reports hsolid),
      Verdict.report?_ofParts_headed, List.isEmpty_reverse]
    show _ = Reading.printed.all (vs.map Verdict.report?)
    simp only [printed, filterMap_map_report?]
  any := by
    intro vs reports hr
    obtain ⟨hsolid, rfl⟩ := forall₂_reported hr
    refine ⟨Verdict.solid_under (by decide) _, ?_⟩
    show ((Verdict.any vs).under anyHeading).report? = Reading.printed.any (vs.map Verdict.report?)
    simp only [printed, none_mem_map_report?_iff, filterMap_map_report?]
    rw [Verdict.any_eq_ofParts hsolid]
    split
    · rfl
    -- all alternatives fail, and the sentence on that stands behind their reports
    · have hparts : ∀ p ∈ (vs.filterMap Verdict.report?).reverse ++ [Verdict.noAlternative],
          Text.Solid p :=
        List.forall_mem_append.2 ⟨Verdict.solid_of_mem_reports hsolid,
          List.forall_mem_singleton.2 Verdict.solid_noAlternative⟩
      rw [under_anyHeading hparts, Verdict.report?_ofParts_headed]
      simp
  unknown := ⟨Verdict.solid_success, rfl⟩

/-! ### The parts of a report -/

/-- A part of the report on a constraint. -/
inductive Part where
  | allFailed
  | anyFailed
  /-- The message of the law at a place among the laws of the constraint. -/
  | law (place : Nat) (message : String)
  | noneHeld
deriving DecidableEq

/-- The text of a part. -/
def Part.text : Part → String
  | allFailed => allHeading
  | anyFailed => anyHeading
  | law _ message => message
  | noneHeld => Verdict.noAlternative

/-- Lists the parts of the report on a constraint; what holds has none. -/
def Reading.parts : Reading (List Part) where
  all := fun lists => headed .allFailed lists.reverse.flatten
  any := fun lists =>
    if [] ∈ lists then [] else .anyFailed :: (lists.reverse.flatten ++ [.noneHeld])
  unknown := []

theorem Reading.parts_all (lists : List (List Part)) :
    Reading.parts.all lists = headed .allFailed lists.reverse.flatten := rfl

theorem Reading.parts_any (lists : List (List Part)) : Reading.parts.any lists =
    if [] ∈ lists then [] else .anyFailed :: (lists.reverse.flatten ++ [.noneHeld]) := rfl

/-- The messages of laws as parts, where the first law is at the place `i`. -/
def lawParts : Nat → List Verdict → List (List Part)
  | _, [] => []
  | i, v :: vs => (v.report?.map (Part.law i)).toList :: lawParts (i + 1) vs

/-- The parts of the report on a constraint, from the verdicts on its laws in their order. -/
def parts (a : Constraint σ α) (vs : List Verdict) : List Part :=
  a.read .parts (lawParts 0 vs)

mutual

/-- Whether a disjunction around the law at the place `i` holds, for truth values of the laws. -/
def excused : Constraint σ α → List Bool → Nat → Bool
  | obeys _, _, _ => false
  | all parts, bs, i => excusedEach parts bs i
  | any parts, bs, i => (any parts).isTrue bs || excusedEach parts bs i

/-- The same for several constraints, among whose laws the places go on. -/
def excusedEach : List (Constraint σ α) → List Bool → Nat → Bool
  | [], _, _ => false
  | part :: parts, bs, i =>
    if i < part.lawCount then part.excused (bs.take part.lawCount) i
    else excusedEach parts (bs.drop part.lawCount) (i - part.lawCount)

end

/-! ### A report is made of its parts -/

/-- A verdict reports solid parts and nothing else. -/
def ComposedOf (v : Verdict) (parts : List Part) : Prop :=
  v = .ofParts (parts.map Part.text) ∧ ∀ p ∈ parts, Text.Solid p.text

theorem forall₂_composedOf {vs : List Verdict} {lists : List (List Part)}
    (hl : List.Forall₂ ComposedOf vs lists) :
    vs = (lists.map (List.map Part.text)).map Verdict.ofParts ∧
      ∀ parts ∈ lists, ∀ p ∈ parts, Text.Solid p.text := by
  induction hl with
  | nil => exact ⟨rfl, List.forall_mem_nil _⟩
  | cons hv _ ih =>
    obtain ⟨rfl, hsolid⟩ := hv
    exact ⟨congrArg _ ih.1, List.forall_mem_cons.2 ⟨hsolid, ih.2⟩⟩

/-- The verdict on a law is composed of one part, which names the place of the law, or of none. -/
theorem composedOf_lawParts {vs : List Verdict} (hvs : ∀ v ∈ vs, v.Solid) (i : Nat) :
    List.Forall₂ ComposedOf vs (lawParts i vs) := by
  induction vs generalizing i with
  | nil => exact .nil
  | cons v vs ih =>
    obtain ⟨hv, hvs⟩ := List.forall_mem_cons.1 hvs
    refine .cons ?_ (ih hvs (i + 1))
    cases v with
    | success => exact ⟨rfl, List.forall_mem_nil _⟩
    | failure message =>
      refine ⟨(Verdict.ofParts_singleton message).symm, ?_⟩
      exact List.forall_mem_singleton.2 (Verdict.solid_failure.1 hv)

theorem solid_text_flatten {lists : List (List Part)}
    (hl : ∀ parts ∈ lists, ∀ p ∈ parts, Text.Solid p.text) :
    ∀ p ∈ lists.reverse.flatten, Text.Solid p.text := by
  intro p hp
  obtain ⟨list, hlist, hm⟩ := List.mem_flatten.1 hp
  exact hl list (List.mem_reverse.1 hlist) p hm

/-- The texts of parts that can be joined can be joined. -/
theorem solid_map_text {parts : List Part} (hp : ∀ p ∈ parts, Text.Solid p.text) :
    ∀ text ∈ parts.map Part.text, Text.Solid text :=
  List.forall_mem_map.2 hp

/-- What is reported is made of the parts. -/
theorem Reading.relates_parts : Reading.Relates ComposedOf .report .parts where
  all := by
    intro vs lists hl
    obtain ⟨rfl, hsolid⟩ := forall₂_composedOf hl
    have hflat := solid_text_flatten hsolid
    have htexts : ∀ texts ∈ lists.map (List.map Part.text), ∀ text ∈ texts, Text.Solid text :=
      List.forall_mem_map.2 fun list hlist => solid_map_text (hsolid list hlist)
    constructor
    -- the text is that of the parts, and each part is solid, the heading too
    · show (Verdict.all _).under allHeading = .ofParts ((headed _ lists.reverse.flatten).map _)
      rw [Verdict.all_map_ofParts htexts, ← List.map_reverse, ← List.map_flatten,
        under_allHeading (solid_map_text hflat), map_headed]
      rfl
    · intro p hp
      rcases mem_of_mem_headed hp with rfl | hp
      · exact ⟨"All constraint failed".toList, ':', by decide, by decide⟩
      · exact hflat p hp
  any := by
    intro vs lists hl
    obtain ⟨rfl, hsolid⟩ := forall₂_composedOf hl
    have hlast : ∀ p ∈ lists.reverse.flatten ++ [Part.noneHeld], Text.Solid p.text :=
      List.forall_mem_append.2
        ⟨solid_text_flatten hsolid, List.forall_mem_singleton.2 Verdict.solid_noAlternative⟩
    have htexts : ∀ texts ∈ lists.map (List.map Part.text), ∀ text ∈ texts, Text.Solid text :=
      List.forall_mem_map.2 fun list hlist => solid_map_text (hsolid list hlist)
    have hempty : [] ∈ lists.map (List.map Part.text) ↔ [] ∈ lists := by
      simp [List.mem_map]
    show ComposedOf ((Verdict.any _).under anyHeading) (Reading.parts.any lists)
    rw [Verdict.any_map_ofParts htexts, Reading.parts]
    simp only [hempty]
    split
    -- a part that holds makes the whole disjunction hold, which then reports nothing
    · exact ⟨rfl, List.forall_mem_nil _⟩
    · constructor
      · have hmap : (lists.map (List.map Part.text)).reverse.flatten ++ [Verdict.noAlternative] =
            (lists.reverse.flatten ++ [Part.noneHeld]).map Part.text := by
          rw [← List.map_reverse, ← List.map_flatten, List.map_append]
          rfl
        rw [hmap, under_anyHeading (solid_map_text hlast), headed_of_ne_nil (by simp)]
        rfl
      · exact List.forall_mem_cons.2
          ⟨⟨"Any constraint failed".toList, ':', by decide, by decide⟩, hlast⟩
  unknown := ⟨rfl, List.forall_mem_nil _⟩

/-! ### Which messages are among the parts -/

/-- A law has no part exactly if it holds. -/
theorem map_isEmpty_lawParts (i : Nat) (vs : List Verdict) :
    (lawParts i vs).map List.isEmpty = vs.map Verdict.isSuccess := by
  induction vs generalizing i with
  | nil => rfl
  | cons v vs ih =>
    rw [lawParts, List.map_cons, List.map_cons, ih]
    cases v <;> rfl

/-- The parts of the first laws are the first parts. -/
theorem take_lawParts (i n : Nat) (vs : List Verdict) :
    (lawParts i vs).take n = lawParts i (vs.take n) := by
  induction vs generalizing i n with
  | nil => simp [lawParts]
  | cons v vs ih =>
    cases n with
    | zero => rfl
    | succ n => rw [lawParts, List.take_succ_cons, List.take_succ_cons, lawParts, ih]

/-- The parts of the later laws keep the places of these. -/
theorem drop_lawParts (i n : Nat) (vs : List Verdict) :
    (lawParts i vs).drop n = lawParts (i + n) (vs.drop n) := by
  induction vs generalizing i n with
  | nil => simp [lawParts]
  | cons v vs ih =>
    cases n with
    | zero => rfl
    | succ n =>
      rw [lawParts, List.drop_succ_cons, List.drop_succ_cons, ih, Nat.add_right_comm, Nat.add_assoc]

/-- There is nothing to report exactly if the formula is true. -/
theorem Reading.maps_isEmpty : Reading.Maps List.isEmpty .parts .truth where
  all_eq := by
    intro lists
    show (headed Part.allFailed lists.reverse.flatten).isEmpty = (lists.map List.isEmpty).all id
    rw [Bool.eq_iff_iff, List.isEmpty_iff, headed_eq_nil_iff]
    simp
  any_eq := by
    intro lists
    show (if [] ∈ lists then [] else _).isEmpty = (lists.map List.isEmpty).any id
    by_cases hm : [] ∈ lists
    · simp [hm]
    · have hne : ∀ list ∈ lists, list ≠ [] := fun list hlist he => hm (he ▸ hlist)
      simpa [hm] using hne
  unknown_eq := rfl

/-- Nothing is printed exactly if the constraint is true. -/
theorem isEmpty_read_parts (a : Constraint σ α) (i : Nat) (vs : List Verdict) :
    (a.read .parts (lawParts i vs)).isEmpty = a.isTrue (vs.map Verdict.isSuccess) := by
  rw [map_read Reading.maps_isEmpty, map_isEmpty_lawParts, isTrue]

theorem count_flatten_reverse (p : Part) (lists : List (List Part)) :
    lists.reverse.flatten.count p = lists.flatten.count p :=
  lists.reverse_perm.flatten.count_eq p

/-- A heading is the message of no law, so it does not count. -/
theorem count_headed (place : Nat) (message : String) (list : List Part) :
    (headed .allFailed list).count (.law place message) = list.count (.law place message) := by
  cases list with
  | nil => rfl
  | cons p list => exact List.count_cons_of_ne (by simp)

mutual

/-- The message of a law is among the parts once if the law fails and no disjunction around it
holds, and otherwise not at all.  The first law is at the place `i`. -/
theorem count_read (place : Nat) (message : String) :
    ∀ (a : Constraint σ α) (i : Nat) (vs : List Verdict), vs.length = a.lawCount →
      (a.read .parts (lawParts i vs)).count (.law place message) =
        if i ≤ place ∧ vs[place - i]? = some (.failure message) ∧
            a.excused (vs.map Verdict.isSuccess) (place - i) = false then 1 else 0
  | obeys law, i, vs, hvs => by
    obtain ⟨v, rfl⟩ := List.length_eq_one_iff.1 hvs
    show ((v.report?.map (Part.law i)).toList).count (.law place message) = _
    -- this is the only law here, so it counts only for its own place
    rcases Nat.lt_trichotomy place i with hlt | rfl | hlt
    · have hne : i ≠ place := Nat.ne_of_gt hlt
      have hle : ¬ i ≤ place := Nat.not_le.2 hlt
      cases v <;> simp [Verdict.report?, hne, hle]
    · cases v with
      | success => simp [Verdict.report?]
      | failure text => by_cases ht : text = message <;> simp [Verdict.report?, excused, ht]
    · have hne : i ≠ place := Nat.ne_of_lt hlt
      have hpos : ¬ place - i = 0 := Nat.sub_ne_zero_of_lt hlt
      cases v <;> simp [Verdict.report?, hne, hpos]
  | all parts, i, vs, hvs => by
    rw [read, Reading.parts_all, count_headed, count_flatten_reverse,
      count_readEach place message parts i vs hvs, excused]
  | any parts, i, vs, hvs => by
    have hempty := isEmpty_read_parts (any parts) i vs
    rw [excused]
    cases ht : (any parts).isTrue (vs.map Verdict.isSuccess) with
    | true =>
      -- the disjunction holds, so it excuses all its laws
      rw [ht, List.isEmpty_iff] at hempty
      simp [hempty]
    | false =>
      rw [ht, read, Reading.parts_any] at hempty
      rw [read, Reading.parts_any]
      split at hempty
      · cases hempty
      · next hm =>
        rw [if_neg hm, List.count_cons_of_ne (by simp), List.count_append, count_flatten_reverse,
          count_readEach place message parts i vs hvs]
        simp

theorem count_readEach (place : Nat) (message : String) :
    ∀ (parts : List (Constraint σ α)) (i : Nat) (vs : List Verdict),
      vs.length = (lawNamesOfEach parts).length →
      (readEach .parts parts (lawParts i vs)).flatten.count (.law place message) =
        if i ≤ place ∧ vs[place - i]? = some (.failure message) ∧
            excusedEach parts (vs.map Verdict.isSuccess) (place - i) = false then 1 else 0
  | [], i, vs, hvs => by
    obtain rfl := List.length_eq_zero_iff.1 hvs
    simp [readEach]
  | part :: parts, i, vs, hvs => by
    have hlength : vs.length = part.lawCount + (lawNamesOfEach parts).length := by
      rw [hvs, lawNamesOfEach, List.length_append]
      rfl
    have hpart := count_read place message part i (vs.take part.lawCount)
      (by rw [List.length_take]; omega)
    have hparts := count_readEach place message parts (i + part.lawCount) (vs.drop part.lawCount)
      (by rw [List.length_drop]; omega)
    rw [readEach, List.flatten_cons, List.count_append, take_lawParts, drop_lawParts, hpart, hparts,
      excusedEach, ← List.map_take, ← List.map_drop, List.getElem?_take, List.getElem?_drop]
    -- the place is among the laws of the first constraint, or of the others
    by_cases hlt : place - i < part.lawCount
    · have hbelow : ¬ i + part.lawCount ≤ place := by omega
      simp only [hlt, hbelow, if_true, false_and, if_false, Nat.add_zero]
    · have hle : i + part.lawCount ≤ place ↔ i ≤ place := by omega
      have hplace : place - (i + part.lawCount) = place - i - part.lawCount := by omega
      have hindex : part.lawCount + (place - i - part.lawCount) = place - i := by omega
      simp only [hlt, hle, hplace, hindex, if_false, reduceCtorEq, false_and, and_false,
        Nat.zero_add]

end

variable [Inspectable α]

/-! ### Checks of constraints -/

/-- **The report on a constraint is what the printer prints** from the reports on its laws, and it
is solid. -/
theorem reported_check (a : Constraint σ α) (g : Generator σ α) (c : Config) (s : σ) :
    Reported ((a.check g c).value s)
      (a.read .printed (((Law.checkEach g c a.leaves).value s).map Verdict.report?)) := by
  have hlaws : List.Forall₂ Reported ((Law.checkEach g c a.leaves).value s)
      (((Law.checkEach g c a.leaves).value s).map Verdict.report?) := by
    refine List.forall₂_map_right_iff.2 (List.forall₂_same.2 fun v hv => ?_)
    exact ⟨Law.solid_checkEach g c a.leaves s v hv, rfl⟩
  rw [check_eq_read, Run.value_map]
  exact rel_read Reading.relates_printed a hlaws

/-- The report on a constraint is made of its parts. -/
theorem composedOf_check (a : Constraint σ α) (g : Generator σ α) (c : Config) (s : σ) :
    ComposedOf ((a.check g c).value s) (a.parts ((Law.checkEach g c a.leaves).value s)) := by
  have hlaws := composedOf_lawParts (Law.solid_checkEach g c a.leaves s) 0
  rw [check_eq_read, Run.value_map]
  exact rel_read Reading.relates_parts a hlaws

/-- What the report on a constraint says, with the verdicts `vs` on its laws. -/
structure Prints (a : Constraint σ α) (g : Generator σ α) (c : Config) (s : σ)
    (vs : List Verdict) : Prop where
  /-- The verdicts are those of the laws, checked in order. -/
  value_eq : (Law.checkEach g c a.leaves).value s = vs
  /-- The report is what the printer prints. -/
  printed : ((a.check g c).value s).report? = a.read .printed (vs.map Verdict.report?)
  /-- The report is made of its parts, with one blank line between. -/
  parts_eq : (a.check g c).value s = .ofParts ((a.parts vs).map Part.text)
  /-- No part ends in a blank. -/
  solid : ∀ p ∈ a.parts vs, Text.Solid p.text
  /-- The message of a law is among the parts once, if the law fails and no disjunction around it
  holds, and otherwise not at all. -/
  count_eq : ∀ place message, (a.parts vs).count (.law place message) =
    if vs[place]? = some (.failure message) ∧ a.excused (vs.map Verdict.isSuccess) place = false
    then 1 else 0

theorem check_prints (a : Constraint σ α) (g : Generator σ α) (c : Config) (s : σ) :
    a.Prints g c s ((Law.checkEach g c a.leaves).value s) where
  value_eq := rfl
  printed := (a.reported_check g c s).2
  parts_eq := (a.composedOf_check g c s).1
  solid := (a.composedOf_check g c s).2
  count_eq := by
    intro place message
    have hlength := (Law.length_value_checkEach g c a.leaves s).trans (length_leaves a)
    have hcount := count_read place message a 0 _ hlength
    rw [parts]
    simpa only [Nat.zero_le, true_and, Nat.sub_zero] using hcount

end Constraint

/-! ### Everything that the library reports -/

namespace Hierarchy

/-- The heading over prerequisites is not blank, even if both names are. -/
theorem isBlankText_prerequisitesHeading (generator name : String) :
    Text.isBlankText (prerequisitesHeading generator name) = false := by
  have hfixed : Text.isBlankText " fails the prerequisites to be a " = false := by decide
  show Text.isBlankText (generator ++ " fails the prerequisites to be a " ++ name) = false
  rw [Text.isBlankText_append, Text.isBlankText_append, hfixed, Bool.and_false, Bool.false_and]

/-- The heading for a subject is not blank, even if both names are. -/
theorem isBlankText_subjectHeading (subject name : String) :
    Text.isBlankText (subjectHeading subject name) = false := by
  have hfixed : Text.isBlankText " fails the laws of " = false := by decide
  show Text.isBlankText ("Class " ++ subject ++ " fails the laws of " ++ name) = false
  rw [Text.isBlankText_append, Text.isBlankText_append, hfixed, Bool.and_false, Bool.false_and]

/-- What a class comes to is solid: all that it reports stands under a heading. -/
theorem solid_joined (generator name : String) (inherited : List Verdict) (own : Verdict) :
    (joined generator name inherited own).Solid :=
  (Verdict.solid_under (isBlankText_prerequisitesHeading generator name) _).both
    (Verdict.solid_under (isBlankText_ownHeading generator name) _)

end Hierarchy

variable [Inspectable α]

/-- All records are solid. -/
theorem Audited.solid {Asks : Generator σ α → Config → Prop} {r : Registry σ α}
    {es : List (Event α)} (ha : Audited Asks r es) {k : GeneratorId} {d : ClassId} {v : Verdict}
    (hv : r.ledger.verdict? k d = some v) : v.Solid := by
  obtain ⟨g, c, s, cls, -, -, hacc⟩ := ha.accounted k d v hv
  obtain ⟨inherited, -, rfl⟩ := hacc.verdict_eq
  exact Hierarchy.solid_joined g.name cls.name inherited _

/-- What a request returns is solid. -/
theorem Audited.solid_validate {Asks : Generator σ α → Config → Prop} {r : Registry σ α}
    {es : List (Event α)} (ha : Audited Asks r es) (id : ClassId) (g : Generator σ α) (c : Config)
    (s : σ) : ((r.validate id g c).value s).1.Solid := by
  by_cases hid : id.index < r.hierarchy.size
  · obtain ⟨plan, hp⟩ := Registry.validate_settles r id g c s hid
    exact (ha.validate id g c s).solid hp.recorded
  · rw [Run.value, Registry.validate_unknown r id g c s hid]
    exact Verdict.solid_fail _

/-- What a direct validation reports on a class can be joined with others without a change. -/
theorem Hierarchy.solid_checkFor (h : Hierarchy σ α) (g : Generator σ α) (c : Config)
    (d : ClassId) (s : σ) : ((h.checkFor g c d).value s).Solid := by
  unfold checkFor
  cases h.find d with
  | error e => exact Verdict.solid_fail _
  | ok cls => exact Verdict.solid_under (isBlankText_subjectHeading g.name cls.name) _

/-- What direct validation reports is solid. -/
theorem solid_validateAll (h : Hierarchy (World ω) α) (sub : Subject κ' ω α) (k : GeneratorId)
    (m : Membership) (c : Config) (w : World ω) : ((validateAll h sub k m c).value w).Solid := by
  unfold validateAll
  split
  · exact Verdict.solid_fail _
  · exact Verdict.solid_all (Run.mem_value_mapM (h.solid_checkFor _ c) _ w)

/-- **Reports say what the printer prints, and end in no blank.**  The report on a constraint is
what the printer makes of the reports on its laws, and shows the message of each law that fails
once, unless a disjunction around it holds.  Whatever a law, a constraint, a request after any run
of operations or a direct validation reports, and whatever is recorded, is solid: it ends in a
character that is no blank. -/
theorem Desk.reports_printed [DecidableEq κ] :
    (∀ (a : Constraint σ α) (g : Generator σ α) (c : Config) (s : σ),
      a.Prints g c s ((Law.checkEach g c a.leaves).value s)) ∧
    (∀ (law : Law σ α) (g : Generator σ α) (c : Config) (s : σ), ((law.check g c).value s).Solid) ∧
    (∀ (a : Constraint σ α) (g : Generator σ α) (c : Config) (s : σ),
      ((a.check g c).value s).Solid) ∧
    (∀ (qs : List (Request κ σ α)) (s₀ s : σ) (id : ClassId) (g : Generator σ α) (c : Config),
      (((Desk.after qs s₀).registry.validate id g c).value s).1.Solid) ∧
    (∀ (qs : List (Request κ σ α)) (s₀ : σ) (k : GeneratorId) (d : ClassId) (v : Verdict),
      (Desk.after qs s₀).registry.ledger.verdict? k d = some v → v.Solid) ∧
    (∀ (h : Hierarchy (World ω) α) (sub : Subject κ' ω α) (k : GeneratorId) (m : Membership)
      (c : Config) (w : World ω), ((validateAll h sub k m c).value w).Solid) := by
  refine ⟨Constraint.check_prints, Law.solid_check, ?_, ?_, ?_, solid_validateAll⟩
  · exact fun a g c s => (a.reported_check g c s).1
  · exact fun qs s₀ s id g c => (Desk.after_audited qs s₀).solid_validate id g c s
  · exact fun qs s₀ k d v hv => (Desk.after_audited qs s₀).solid hv

end Lawbook

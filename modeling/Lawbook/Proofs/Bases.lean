/-
Lawbook/Proofs/Bases.lean

Bases: whether the laws of the parents are checked before those of a class.

A request goes to the parents of a class first.  Direct validation reads the ancestors of a declared
class backwards, the farthest first, and leaves out what was on the agenda before.  Now the
ancestors are listed by their shortest distance.  Where a class extends both another one and the
base of that one, the two are at the same distance, and the order of the declarations decides; over
a longer shortcut the base is even nearer.  So the bases do not always come first
(`Shortcut.bases_not_first`).

What does hold: a parent comes before a class exactly if an earlier declaration had put it on the
agenda, or the class is the declared one, or it stands behind the class among the ancestors of the
declared one (`Hierarchy.precedes_agenda_iff`).  Where all ways from a declared class to an ancestor
have the same length, the bases come first (`Hierarchy.bases_first`).

Main result: `validateAll_order`.
-/
import Lawbook.Proofs.Breadth
import Lawbook.Proofs.Coverage
import Lawbook.Proofs.Samples

namespace Lawbook

open Event Run

variable {κ σ ω α β : Type}

/-! ### What comes before what in a list -/

/-- A list has one member and, behind it, another one. -/
def Precedes (xs : List β) (a b : β) : Prop :=
  [a, b].Sublist xs

section Precedes

variable {a b : β} {xs ys zs : List β}

theorem precedes_reverse_iff : Precedes xs.reverse a b ↔ Precedes xs b a := by
  show [b, a].reverse.Sublist xs.reverse ↔ [b, a].Sublist xs
  exact List.reverse_sublist

theorem Precedes.trans_sublist (hp : Precedes xs a b) (hs : xs.Sublist ys) : Precedes ys a b :=
  List.Sublist.trans hp hs

theorem precedes_append_of_mem (ha : a ∈ xs) (hb : b ∈ ys) : Precedes (xs ++ ys) a b :=
  (List.singleton_sublist.2 ha).append (List.singleton_sublist.2 hb)

/-- What is left out does not matter for the others. -/
theorem precedes_filter_iff {p : β → Bool} (ha : p a = true) (hb : p b = true) :
    Precedes (xs.filter p) a b ↔ Precedes xs a b := by
  refine ⟨fun hf => hf.trans_sublist List.filter_sublist, fun hs => ?_⟩
  have hf : ([a, b].filter p).Sublist (xs.filter p) := List.Sublist.filter p hs
  rwa [List.filter_cons_of_pos ha, List.filter_cons_of_pos hb, List.filter_nil] at hf

variable [DecidableEq β]

/-- For members of the middle part of a list without repetition, only this part matters. -/
theorem precedes_middle_iff (hn : (xs ++ ys ++ zs).Nodup) (ha : a ∈ ys) (hb : b ∈ ys) :
    Precedes (xs ++ ys ++ zs) a b ↔ Precedes ys a b := by
  obtain ⟨hn, -, hzs⟩ := List.nodup_append.1 hn
  obtain ⟨-, -, hxs⟩ := List.nodup_append.1 hn
  have hleft : xs.filter (· ∈ ys) = [] :=
    List.filter_eq_nil_iff.2 fun x hx hm => hxs x hx x (of_decide_eq_true hm) rfl
  have hright : zs.filter (· ∈ ys) = [] :=
    List.filter_eq_nil_iff.2 fun z hz hm =>
      hzs z (List.mem_append_right xs (of_decide_eq_true hm)) z hz rfl
  have hself : ys.filter (· ∈ ys) = ys := List.filter_eq_self.2 fun y hy => decide_eq_true hy
  rw [← precedes_filter_iff (p := fun x => x ∈ ys) (decide_eq_true ha) (decide_eq_true hb),
    List.filter_append, List.filter_append, hleft, hself, hright, List.nil_append, List.append_nil]

/-- Of a list without repetition, all members that are new are put behind, in their order. -/
theorem withNew_eq_append (hn : ys.Nodup) :
    withNew xs ys = xs ++ ys.filter fun y => y ∉ xs := by
  induction ys generalizing xs with
  | nil => exact (List.append_nil xs).symm
  | cons y ys ih =>
    obtain ⟨hy, hn⟩ := List.nodup_cons.1 hn
    by_cases hm : y ∈ xs
    · rw [withNew_cons_of_mem hm, ih hn, List.filter_cons_of_neg (by simpa using hm)]
    · have hrest : (ys.filter fun z => z ∉ xs ++ [y]) = ys.filter fun z => z ∉ xs := by
        refine List.filter_congr fun z hz => ?_
        have hne : z ≠ y := fun he => hy (he ▸ hz)
        simp [hne]
      rw [withNew_cons_of_not_mem hm, ih hn, hrest, List.filter_cons_of_pos (by simpa using hm),
        List.append_assoc]
      rfl

end Precedes

/-! ### The order of the agenda -/

namespace Hierarchy

variable {h : Hierarchy σ α} {m : Membership} {id d p : ClassId} {before after : List ClassId}

/-- A declared class puts on the agenda what is new of its lineage. -/
theorem exists_agenda_eq (hm : m.classes = before ++ id :: after) : ∃ rest,
    h.agenda m = distinct (before.flatMap h.lineage) ++
      (h.lineage id).filter (fun d => d ∉ distinct (before.flatMap h.lineage)) ++ rest := by
  obtain ⟨rest, hrest⟩ := prefix_withNew
    (withNew (distinct (before.flatMap h.lineage)) (h.lineage id)) (after.flatMap h.lineage)
  refine ⟨rest, ?_⟩
  rw [← withNew_eq_append (h.lineage_nodup id), hrest, agenda, hm, List.flatMap_append,
    List.flatMap_cons]
  show withNew [] _ = _
  rw [withNew_append, withNew_append]
  rfl

/-- In a lineage, an ancestor comes before the class itself and before the nearer ones. -/
theorem precedes_lineage_iff (hp : p ∈ h.ancestors id) :
    Precedes (h.lineage id) p d ↔ d = id ∨ Precedes (h.ancestors id) d p := by
  have hreverse : Precedes (h.ancestors id).reverse p d ↔ Precedes (h.ancestors id) d p :=
    precedes_reverse_iff
  rw [lineage, ← hreverse]
  by_cases hd : d = id
  · have hlast := precedes_append_of_mem (List.mem_reverse.2 hp) (List.mem_singleton.2 hd)
    exact iff_of_true hlast (.inl hd)
  · -- the class itself does not matter for its ancestors
    have hpid : p ≠ id := ne_of_transGen (mem_ancestors_iff.1 hp)
    have hself : (h.ancestors id).reverse.filter (fun x => x ≠ id) = (h.ancestors id).reverse :=
      List.filter_eq_self.2 fun x hx =>
        decide_eq_true (ne_of_transGen (mem_ancestors_iff.1 (List.mem_reverse.1 hx)))
    rw [or_iff_right hd, ← precedes_filter_iff (p := fun x => x ≠ id) (decide_eq_true hpid)
      (decide_eq_true hd), List.filter_append, hself, List.filter_cons_of_neg (by simp),
      List.filter_nil, List.append_nil]

/-- **When a parent comes before a class.**  The class comes with the first declared class that it
is or from which it descends.  Its parent comes before it exactly if it had come with an earlier
declared class, or if the class is the declared one, or if it stands behind the class among the
ancestors of the declared one. -/
theorem precedes_agenda_iff (hm : m.classes = before ++ id :: after) (hd : h.Descends id d)
    (hfirst : ∀ id' ∈ before, ¬ h.Descends id' d) (hp : h.Extends d p) :
    Precedes (h.agenda m) p d ↔
      (∃ id' ∈ before, h.Descends id' p) ∨ d = id ∨ Precedes (h.ancestors id) d p := by
  obtain ⟨rest, hagenda⟩ := h.exists_agenda_eq hm
  have hn : (h.agenda m).Nodup := distinct_nodup _
  have hmem : ∀ x, x ∈ distinct (before.flatMap h.lineage) ↔ ∃ id' ∈ before, h.Descends id' x := by
    intro x
    rw [mem_distinct_iff, List.mem_flatMap]
    exact exists_congr fun id' => and_congr_right fun _ => mem_lineage_iff
  have hout : ∀ x, (¬ ∃ id' ∈ before, h.Descends id' x) →
      decide (x ∉ distinct (before.flatMap h.lineage)) = true :=
    fun x hx => decide_eq_true (mt (hmem x).1 hx)
  have hnew : ∀ x, h.Descends id x → (¬ ∃ id' ∈ before, h.Descends id' x) →
      x ∈ (h.lineage id).filter fun d => d ∉ distinct (before.flatMap h.lineage) :=
    fun x hx hnot => List.mem_filter.2 ⟨mem_lineage_iff.2 hx, hout x hnot⟩
  have hdnot : ¬ ∃ id' ∈ before, h.Descends id' d := fun ⟨id', hid', hx⟩ => hfirst id' hid' hx
  have hdnew := hnew d hd hdnot
  have hpanc : p ∈ h.ancestors id :=
    mem_ancestors_iff.2 (Relation.TransGen.tail' hd hp)
  rw [hagenda] at hn ⊢
  by_cases hearly : ∃ id' ∈ before, h.Descends id' p
  -- the parent comes with an earlier declared class, and this class does not
  · refine iff_of_true ?_ (.inl hearly)
    exact (precedes_append_of_mem ((hmem p).2 hearly) hdnew).trans_sublist
      (List.sublist_append_left _ rest)
  -- both come with this declared class, in the order of its lineage
  · have hpnew := hnew p (hd.tail hp) hearly
    have hfilter : Precedes ((h.lineage id).filter
        fun d => d ∉ distinct (before.flatMap h.lineage)) p d ↔ Precedes (h.lineage id) p d :=
      precedes_filter_iff (hout p hearly) (hout d hdnot)
    rw [precedes_middle_iff hn hpnew hdnew, hfilter, precedes_lineage_iff hpanc,
      or_iff_right hearly]

/-- A member of a list without repetition comes before another one, or the other way round. -/
theorem precedes_or_precedes {β : Type} {xs : List β} {a b : β} (ha : a ∈ xs) (hb : b ∈ xs)
    (hne : a ≠ b) : Precedes xs a b ∨ Precedes xs b a := by
  obtain ⟨front, back, rfl⟩ := List.mem_iff_append.1 ha
  rcases List.mem_append.1 hb with hb | hb
  · exact .inr (precedes_append_of_mem hb List.mem_cons_self)
  · refine .inl ?_
    have hback : b ∈ back := (List.mem_cons.1 hb).resolve_left (Ne.symm hne)
    exact (precedes_append_of_mem (List.mem_singleton.2 rfl) hback).trans_sublist
      (List.sublist_append_right front (a :: back))

/-- The first declared class from which a class on the agenda descends. -/
theorem exists_first_declared (hd : d ∈ h.agenda m) : ∃ before id after,
    m.classes = before ++ id :: after ∧ h.Descends id d ∧ ∀ id' ∈ before, ¬ h.Descends id' d := by
  obtain ⟨id, hid, hdesc⟩ := mem_agenda_iff.1 hd
  have hnot : ¬ ∀ id ∈ m.classes, ¬ h.Descends id d := fun hall => hall id hid hdesc
  obtain ⟨before, first, after, hm, hbefore, hfirst⟩ := exists_first_of_not_forall hnot
  exact ⟨before, first, after, hm, not_not.1 hfirst, hbefore⟩

/-- A way leads to each class from which another one descends. -/
theorem Descends.exists_way (hd : h.Descends id d) : ∃ n, h.Way id n d := by
  induction hd with
  | refl => exact ⟨0, .start⟩
  | tail _ he ih =>
    obtain ⟨n, hn⟩ := ih
    exact ⟨n + 1, hn.up he⟩

/-- **Where ways do not differ in length, the bases come first.**  If all ways from a declared class
to an ancestor have the same length, every parent comes before its class. -/
theorem bases_first
    (hways : ∀ id ∈ m.classes, ∀ a i j, h.Way id i a → h.Way id j a → i = j)
    (hd : d ∈ h.agenda m) (hp : h.Extends d p) : Precedes (h.agenda m) p d := by
  obtain ⟨before, id, after, hm, hdesc, hfirst⟩ := exists_first_declared hd
  rw [precedes_agenda_iff hm hdesc hfirst hp]
  refine .inr (or_iff_not_imp_left.2 fun hne => ?_)
  have hdanc : d ∈ h.ancestors id := by
    rw [mem_ancestors_iff]
    exact (Relation.reflTransGen_iff_eq_or_transGen.1 hdesc).resolve_left hne
  have hpanc : p ∈ h.ancestors id := mem_ancestors_iff.2 (Relation.TransGen.tail' hdesc hp)
  have hpd : d ≠ p := fun he => Nat.lt_irrefl _ (he ▸ hp.lt)
  refine (precedes_or_precedes hdanc hpanc hpd).resolve_right fun hwrong => ?_
  -- if the parent were listed before the class, a way to it would be as short
  obtain ⟨n, hn⟩ := hdesc.exists_way
  have hnear : h.Nearer id p d :=
    List.pairwise_pair.1 ((h.ancestors_nearest_first id).sublist hwrong)
  obtain ⟨i, hi, hw⟩ := hnear n hn
  have hid : id ∈ m.classes := hm ▸ List.mem_append_right before List.mem_cons_self
  have heq := hways id hid p i (n + 1) hw (hn.up hp)
  omega

end Hierarchy

/-! ### The order of the checks -/

namespace Event

/-- The class whose laws are about to be checked. -/
def opened? : Event α → Option ClassId
  | opened id _ _ => some id
  | _ => none

/-- The classes whose laws are checked, in order. -/
def checkedClasses (es : List (Event α)) : List ClassId :=
  es.filterMap opened?

theorem checkedClasses_append (es es' : List (Event α)) :
    checkedClasses (es ++ es') = checkedClasses es ++ checkedClasses es' :=
  List.filterMap_append

@[simp] theorem checkedClasses_opened_cons (id : ClassId) (k : GeneratorId) (skipped : Bool)
    (es : List (Event α)) :
    checkedClasses (opened id k skipped :: es) = id :: checkedClasses es := rfl

@[simp] theorem checkedClasses_closed_cons (id : ClassId) (k : GeneratorId) (v : Verdict)
    (es : List (Event α)) : checkedClasses (closed id k v :: es) = checkedClasses es := rfl

theorem checkedClasses_eq_nil {es : List (Event α)} (he : ∀ e ∈ es, e.IsSampling) :
    checkedClasses es = [] := by
  refine List.filterMap_eq_nil_iff.2 fun e hm => ?_
  have := he e hm
  cases e <;> simp_all [IsSampling, opened?]

end Event

section Checks

variable [Inspectable α] {g : Generator σ α} {c : Config}

/-- Where laws are run in turn, the classes are opened in this order. -/
theorem Hierarchy.RunsLaws.checkedClasses_eq {h : Hierarchy σ α} {ds : List ClassId} {s t : σ}
    {es : List (Event α)} (hr : h.RunsLaws g c s ds t es) : checkedClasses es = ds := by
  induction hr with
  | nil => rfl
  | @cons s d cls ds t es _ _ ih =>
    rw [checkedClasses_opened_cons, checkedClasses_append, checkedClasses_closed_cons, ih,
      checkedClasses_eq_nil (cls.laws.reports_check g c s), List.nil_append]

/-- Classes are checked in this order for declared classes. -/
structure Hierarchy.OrdersChecks (h : Hierarchy σ α) (m : Membership) (order : List ClassId) :
    Prop where
  /-- It is the order of the agenda, without the classes that are not there. -/
  order_eq : order = h.registered (h.agenda m)
  /-- A class comes with the first declared class from which it descends.  Its parent comes before
  it exactly if the parent had come with an earlier one, or the class is that declared class, or
  the parent stands behind the class among the ancestors of that declared class. -/
  precedes_iff : ∀ before id after d p, m.classes = before ++ id :: after → h.Descends id d →
    (∀ id' ∈ before, ¬ h.Descends id' d) → h.Extends d p →
    (Precedes order p d ↔
      (∃ id' ∈ before, h.Descends id' p) ∨ d = id ∨ Precedes (h.ancestors id) d p)
  /-- All bases come first if the ways from a declared class to an ancestor have one length. -/
  bases_first : (∀ id ∈ m.classes, ∀ a i j, h.Way id i a → h.Way id j a → i = j) →
    ∀ d p, d ∈ order → h.Extends d p → Precedes order p d

namespace Hierarchy

variable {h : Hierarchy σ α} {d p : ClassId}

omit [Inspectable α] in
theorem ordersChecks_registered (h : Hierarchy σ α) (m : Membership) :
    h.OrdersChecks m (h.registered (h.agenda m)) := by
  have hprecedes : ∀ {d p}, h.Extends d p →
      (Precedes (h.registered (h.agenda m)) p d ↔ Precedes (h.agenda m) p d) := by
    intro d p he
    obtain ⟨hd, hp⟩ := he.lt_size
    exact precedes_filter_iff (class?_isSome_iff.2 hp) (class?_isSome_iff.2 hd)
  refine ⟨rfl, ?_, ?_⟩
  · intro before id after d p hm hd hfirst hp
    rw [hprecedes hp]
    exact precedes_agenda_iff hm hd hfirst hp
  · intro hways d p hd hp
    rw [hprecedes hp]
    exact Hierarchy.bases_first hways (mem_registered_iff.1 hd).1 hp

end Hierarchy

/-- **In which order direct validation checks classes**, in every hierarchy and for all declared
classes. -/
theorem validateAll_order (h : Hierarchy (World ω) α) (sub : Subject κ ω α) (k : GeneratorId)
    (m : Membership) (c : Config) (w : World ω) :
    h.OrdersChecks m (checkedClasses ((validateAll h sub k m c).events w)) := by
  have horder : checkedClasses ((validateAll h sub k m c).events w) =
      h.registered (h.agenda m) := by
    by_cases hnil : m.classes = []
    · rw [validateAll_of_nil h sub k hnil, Hierarchy.agenda, hnil]
      rfl
    · rw [validateAll_of_ne_nil h sub k hnil, events_bind, events_pure, List.append_nil]
      exact (h.covers_agenda m _ c w).runs_laws.checkedClasses_eq
  rw [horder]
  exact h.ordersChecks_registered m

end Checks

/-! ### A class that extends a class and the base of this class -/

namespace Shortcut

/-- Three classes, the last of which extends both others. -/
def requests : List (Request Unit (World Unit) Nat) :=
  [.register ⟨some "Base", [], []⟩,
   .register ⟨some "Middle", [⟨0⟩], []⟩,
   .register ⟨some "Top", [⟨0⟩, ⟨1⟩], []⟩]

/-- The last class is declared. -/
def top : Membership := ⟨[⟨2⟩], false⟩

theorem checked_top : checkedClasses ((validateAll
    (Desk.after requests Lengths.world).registry.hierarchy Lengths.lengths ⟨1⟩ top
      Lengths.config).events Lengths.world) = [⟨1⟩, ⟨0⟩, ⟨2⟩] := by
  decide +kernel

/-- **Bases do not always come first**: the middle class is checked before its base. -/
theorem bases_not_first : ¬ ∀ (qs : List (Request Unit (World Unit) Nat)) (s₀ w : World Unit)
    (sub : Subject Unit Unit Nat) (k : GeneratorId) (m : Membership) (c : Config),
    (∀ id ∈ m.classes, id.index < (Desk.after qs s₀).registry.hierarchy.size) →
    ∀ d p, (Desk.after qs s₀).registry.hierarchy.Extends d p →
      d ∈ checkedClasses ((validateAll (Desk.after qs s₀).registry.hierarchy sub k m c).events w) →
      Precedes (checkedClasses
        ((validateAll (Desk.after qs s₀).registry.hierarchy sub k m c).events w)) p d := by
  intro hall
  have hfirst := hall requests Lengths.world Lengths.world Lengths.lengths ⟨1⟩ top Lengths.config
    (by decide +kernel) ⟨1⟩ ⟨0⟩ (by rw [Hierarchy.Extends]; decide +kernel)
  rw [checked_top] at hfirst
  have hsub : [(⟨0⟩ : ClassId), ⟨1⟩].Sublist [⟨1⟩, ⟨0⟩, ⟨2⟩] := hfirst (by decide)
  revert hsub
  decide

end Shortcut

end Lawbook

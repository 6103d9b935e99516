/-
Lawbook/Proofs/Ancestry.lean

Ancestry: the relation that walks through a hierarchy follow.

`Descends d a` says that `a` is the class `d` or one of its transitive parents.  Numbers fall on
every step from a class to a parent, so the ancestors of a registered class are registered, and
classes that join a hierarchy later change nothing about those that are there.  For the same reason
there is induction over the ancestry of a class (`parents_induction`).

Main results: the list `ancestors` holds exactly the proper ancestors of a class, each once
(`mem_ancestors_iff`, `ancestors_nodup`), hence `lineage` holds the class and its ancestors
(`mem_lineage_iff`, `lineage_nodup`); different classes among others have no more parents than these
(`edgeCount_le`); the ancestry of a registered class stays when the hierarchy grows
(`Grows.descends_iff`).
-/
import Lawbook.Instance
import Mathlib.Data.List.Flatten
import Mathlib.Data.List.Nodup
import Mathlib.Data.List.Perm.Subperm
import Mathlib.Logic.Relation
import Mathlib.Tactic.Push

namespace Lawbook.Hierarchy

variable {σ α : Type}
variable {h h' : Hierarchy σ α} {id d p a : ClassId} {cls : Class σ α}

/-! ### The relation -/

/-- A class extends its parents. -/
def Extends (h : Hierarchy σ α) (d p : ClassId) : Prop :=
  p ∈ h.parentsOf d

/-- A class descends from itself and from its transitive parents. -/
def Descends (h : Hierarchy σ α) : ClassId → ClassId → Prop :=
  Relation.ReflTransGen h.Extends

/-- Below the size of the hierarchy all numbers are those of classes. -/
theorem exists_class?_of_lt (hid : id.index < h.size) : ∃ cls, h.class? id = some cls :=
  Option.isSome_iff_exists.1 (class?_isSome_iff.2 hid)

/-- A class that is there has a number below the size of the hierarchy. -/
theorem lt_size_of_class? (hc : h.class? id = some cls) : id.index < h.size :=
  class?_isSome_iff.1 (by rw [hc]; rfl)

theorem class?_eq_none_of_not_lt (hid : ¬ id.index < h.size) : h.class? id = none := by
  rw [← Option.not_isSome_iff_eq_none, class?_isSome_iff]
  exact hid

theorem parentsOf_eq (hc : h.class? id = some cls) : h.parentsOf id = cls.parents := by
  simp [parentsOf, hc]

theorem nameOf_eq (hc : h.class? id = some cls) : h.nameOf id = cls.name := by
  simp [nameOf, hc]

/-- Parents have smaller numbers, so the relation has no cycles. -/
theorem Extends.lt (he : h.Extends d p) : p.index < d.index :=
  lt_of_mem_parentsOf he

/-- Numbers do not grow on the way up. -/
theorem Descends.index_le (hd : h.Descends d a) : a.index ≤ d.index := by
  induction hd with
  | refl => exact Nat.le_refl _
  | tail _ he ih => exact Nat.le_trans (Nat.le_of_lt he.lt) ih

/-- The ancestors of a class that is there are there. -/
theorem Descends.lt_size (hd : h.Descends d a) (hs : d.index < h.size) : a.index < h.size :=
  Nat.lt_of_le_of_lt hd.index_le hs

/-- A class descends from itself and from what its parents descend from. -/
theorem descends_iff : h.Descends d a ↔ a = d ∨ ∃ p ∈ h.parentsOf d, h.Descends p a :=
  Relation.ReflTransGen.cases_head_iff.trans (or_congr_left eq_comm)

theorem Descends.of_parent (hp : p ∈ h.parentsOf d) (hd : h.Descends p a) : h.Descends d a :=
  Relation.ReflTransGen.head hp hd

/-- **Induction over the ancestry**: what a class has as soon as all its parents have it, every
class has.  The numbers of the parents lie below that of the class. -/
theorem parents_induction {motive : ClassId → Prop}
    (step : ∀ d, (∀ p ∈ h.parentsOf d, motive p) → motive d) (d : ClassId) : motive d := by
  suffices hbelow : ∀ n (d : ClassId), d.index < n → motive d from
    hbelow (d.index + 1) d (Nat.lt_succ_self _)
  intro n
  induction n with
  | zero => exact fun d hn => absurd hn (Nat.not_lt_zero _)
  | succ n ih =>
    intro d hn
    refine step d fun p hp => ih p ?_
    exact Nat.lt_of_lt_of_le (lt_of_mem_parentsOf hp) (Nat.le_of_lt_succ hn)

/-! ### One level of the walk -/

/-- One member of a level adds itself to what was met, unless the walk started from it. -/
theorem mem_meet_singleton_iff {root x y : ClassId} {seen : List ClassId} :
    x ∈ meet root seen [y] ↔ x ∈ seen ∨ (x = y ∧ x ≠ root) := by
  show x ∈ (if y = root ∨ y ∈ seen then seen else seen ++ [y]) ↔ _
  split
  -- a member that is not new puts nothing on the list: it is there, or it is the root
  · next hy =>
    constructor
    · exact .inl
    · rintro (hx | ⟨rfl, hne⟩)
      · exact hx
      · exact hy.resolve_left hne
  · next hy =>
    rw [not_or] at hy
    rw [List.mem_append, List.mem_singleton]
    refine or_congr_right ⟨?_, And.left⟩
    rintro rfl
    exact ⟨rfl, hy.1⟩

/-- A level adds its members to what was met, except for the class that the walk started from. -/
theorem mem_meet_iff {root x : ClassId} {level : List ClassId} :
    ∀ {seen}, x ∈ meet root seen level ↔ x ∈ seen ∨ (x ∈ level ∧ x ≠ root) := by
  induction level with
  | nil => simp [meet]
  | cons y level ih =>
    intro seen
    have hstep : meet root seen (y :: level) = meet root (meet root seen [y]) level := rfl
    rw [hstep, ih, mem_meet_singleton_iff, List.mem_cons, or_and_right, or_assoc]

/-- A level puts what is new on it behind what was met before, without repetition. -/
theorem exists_meet_eq_append (root : ClassId) (level : List ClassId) :
    ∀ seen : List ClassId, seen.Nodup →
      ∃ fresh, meet root seen level = seen ++ fresh ∧ (seen ++ fresh).Nodup := by
  induction level with
  | nil => exact fun seen hs => ⟨[], by simp [meet], by simpa using hs⟩
  | cons y level ih =>
    intro seen hs
    have hstep : meet root seen (y :: level) =
        meet root (if y = root ∨ y ∈ seen then seen else seen ++ [y]) level := rfl
    rw [hstep]
    by_cases hy : y = root ∨ y ∈ seen
    · rw [if_pos hy]
      exact ih seen hs
    · rw [if_neg hy]
      push Not at hy
      obtain ⟨fresh, he, hn⟩ := ih (seen ++ [y]) (List.nodup_append.2
        ⟨hs, List.nodup_singleton y, fun x hx z hz e => hy.2 (List.mem_singleton.1 hz ▸ e ▸ hx)⟩)
      exact ⟨y :: fresh, by rw [he]; simp, by simpa using hn⟩

/-! ### The walk -/

/-- What the walk knows at a level: the classes met and those of the level lie properly above
`root`, what was met is met once, and a parent of a class that was met was met as well or is on the
level, whose numbers the bound exceeds. -/
structure Climbing (h : Hierarchy σ α) (root : ClassId) (n : Nat) (seen level : List ClassId) :
    Prop where
  seen_above : ∀ x ∈ seen, Relation.TransGen h.Extends root x
  level_above : ∀ x ∈ level, Relation.TransGen h.Extends root x
  nodup : seen.Nodup
  parents : ∀ x ∈ seen, ∀ p ∈ h.parentsOf x, p ∈ seen ∨ p ∈ level
  bound : ∀ x ∈ level, x.index < n

/-- No class lies properly above itself. -/
theorem ne_of_transGen {root x : ClassId} (ht : Relation.TransGen h.Extends root x) :
    x ≠ root := by
  rintro rfl
  obtain ⟨y, hy, he⟩ := Relation.TransGen.tail'_iff.1 ht
  exact Nat.lt_irrefl _ (Nat.lt_of_lt_of_le he.lt (Descends.index_le hy))

/-- What is new on a level opens the next one. -/
theorem Climbing.next {root : ClassId} {n : Nat} {seen level fresh : List ClassId}
    (hc : Climbing h root (n + 1) seen level) (he : meet root seen level = seen ++ fresh)
    (hn : (seen ++ fresh).Nodup) :
    Climbing h root n (seen ++ fresh) (fresh.flatMap h.parentsOf) := by
  have hfresh : ∀ x ∈ fresh, x ∈ level := by
    intro x hx
    have hm : x ∈ meet root seen level := he ▸ List.mem_append_right _ hx
    rcases mem_meet_iff.1 hm with hs | ⟨hl, -⟩
    · exact absurd rfl ((List.nodup_append.1 hn).2.2 x hs x hx)
    · exact hl
  refine ⟨?_, ?_, hn, ?_, ?_⟩
  -- what was met, and the parents of what is new, lie above the root
  · intro x hx
    rcases List.mem_append.1 hx with hx | hx
    · exact hc.seen_above x hx
    · exact hc.level_above x (hfresh x hx)
  · intro p hp
    obtain ⟨x, hx, hxp⟩ := List.mem_flatMap.1 hp
    exact (hc.level_above x (hfresh x hx)).tail hxp
  -- a parent that was to be on this level has been met with it, for it is not the root
  · intro x hx p hp
    rcases List.mem_append.1 hx with hx | hx
    · rcases hc.parents x hx p hp with hs | hl
      · exact .inl (List.mem_append_left _ hs)
      · have hm : p ∈ meet root seen level :=
          mem_meet_iff.2 (.inr ⟨hl, ne_of_transGen (hc.level_above p hl)⟩)
        exact .inl (he ▸ hm)
    · exact .inr (List.mem_flatMap.2 ⟨x, hx, hp⟩)
  -- a parent has a smaller number than its class
  · intro p hp
    obtain ⟨x, hx, hxp⟩ := List.mem_flatMap.1 hp
    have hb := hc.bound x (hfresh x hx)
    have hlt := lt_of_mem_parentsOf hxp
    omega

theorem Climbing.level_eq_nil {root : ClassId} {seen level : List ClassId}
    (hc : Climbing h root 0 seen level) : level = [] :=
  List.eq_nil_iff_forall_not_mem.2 fun x hx => absurd (hc.bound x hx) (Nat.not_lt_zero _)

/-- With an empty level, nothing is met any more, whatever the bound is. -/
theorem climb_nil (h : Hierarchy σ α) (root : ClassId) (n : Nat) (seen : List ClassId) :
    climb h root n seen [] = seen := by
  cases n <;> rfl

/-- One level of the walk. -/
theorem climb_succ {root : ClassId} {seen level fresh : List ClassId} (n : Nat)
    (he : meet root seen level = seen ++ fresh) :
    climb h root (n + 1) seen level =
      climb h root n (seen ++ fresh) (fresh.flatMap h.parentsOf) := by
  cases level with
  | nil =>
    have hnil : fresh = [] := List.self_eq_append_right.1 he
    rw [hnil, List.append_nil, List.flatMap_nil, climb_nil, climb_nil]
  | cons x level =>
    rw [climb, he, List.drop_left]
    simp

/-- The walk keeps what it met, stays above `root` and ends with a list that is closed under
parents. -/
theorem Climbing.climb {root : ClassId} {n : Nat} {seen level : List ClassId}
    (hc : Climbing h root n seen level) :
    Climbing h root 0 (climb h root n seen level) [] ∧
      (∀ x ∈ seen, x ∈ Hierarchy.climb h root n seen level) ∧
      (∀ x ∈ level, x ∈ Hierarchy.climb h root n seen level) := by
  induction n generalizing seen level with
  | zero =>
    obtain rfl := hc.level_eq_nil
    exact ⟨hc, fun _ hx => hx, by simp⟩
  | succ n ih =>
    obtain ⟨fresh, he, hn⟩ := exists_meet_eq_append root level seen hc.nodup
    obtain ⟨hfin, hseen, -⟩ := ih (hc.next he hn)
    rw [climb_succ n he]
    refine ⟨hfin, fun x hx => hseen x (List.mem_append_left _ hx), fun x hx => hseen x ?_⟩
    rw [← he]
    exact mem_meet_iff.2 (.inr ⟨hx, ne_of_transGen (hc.level_above x hx)⟩)

/-- The walk starts with the parents of the class, and nothing met so far. -/
theorem climbing_start (h : Hierarchy σ α) (id : ClassId) :
    Climbing h id id.index [] (h.parentsOf id) where
  seen_above := by simp
  level_above := fun _ hx => .single hx
  nodup := List.nodup_nil
  parents := by simp
  bound := fun _ hx => lt_of_mem_parentsOf hx

/-! ### The computed ancestors -/

/-- **The ancestors of a class** are the classes properly above it. -/
theorem mem_ancestors_iff : a ∈ h.ancestors id ↔ Relation.TransGen h.Extends id a := by
  obtain ⟨hfin, -, hlevel⟩ := (climbing_start h id).climb
  constructor
  · exact hfin.seen_above a
  · intro ht
    induction ht with
    | single he => exact hlevel _ he
    | tail _ he ih => exact (hfin.parents _ ih _ he).resolve_right (by simp)

/-- No ancestor is listed twice, in however many ways it is reached. -/
theorem ancestors_nodup (h : Hierarchy σ α) (id : ClassId) : (h.ancestors id).Nodup :=
  (climbing_start h id).climb.1.nodup

/-- The lineage of a class is the class itself and its ancestors. -/
theorem mem_lineage_iff : a ∈ h.lineage id ↔ h.Descends id a := by
  rw [lineage, List.mem_append, List.mem_reverse, List.mem_singleton, mem_ancestors_iff, Descends,
    Relation.reflTransGen_iff_eq_or_transGen, or_comm]

/-- To be a subclass is to descend. -/
theorem isSubclass_iff : h.isSubclass id a ↔ h.Descends id a := by
  rw [isSubclass, Bool.or_eq_true, decide_eq_true_iff, decide_eq_true_iff, mem_ancestors_iff,
    Descends, Relation.reflTransGen_iff_eq_or_transGen, eq_comm]

/-- No class is in a lineage twice: ancestors are not, and the class is none of them. -/
theorem lineage_nodup (h : Hierarchy σ α) (id : ClassId) : (h.lineage id).Nodup := by
  refine List.nodup_append.2
    ⟨List.nodup_reverse.2 (ancestors_nodup h id), List.nodup_singleton id, ?_⟩
  intro x hx y hy
  rw [List.mem_singleton.1 hy]
  exact ne_of_transGen (mem_ancestors_iff.1 (List.mem_reverse.1 hx))

/-! ### Parent edges -/

/-- The number of parent edges of several classes, taken together. -/
def edgeCount (h : Hierarchy σ α) (ds : List ClassId) : Nat :=
  (ds.flatMap h.parentsOf).length

/-- Parent edges of different classes are different edges. -/
theorem edgeCount_append (h : Hierarchy σ α) (ds ds' : List ClassId) :
    h.edgeCount (ds ++ ds') = h.edgeCount ds + h.edgeCount ds' := by
  rw [edgeCount, List.flatMap_append, List.length_append]
  rfl

theorem edgeCount_singleton (h : Hierarchy σ α) (d : ClassId) :
    h.edgeCount [d] = (h.parentsOf d).length := by
  simp [edgeCount]

/-- Different classes among others have no more parents than these. -/
theorem edgeCount_le {ds ds' : List ClassId} (h : Hierarchy σ α) (hn : ds.Nodup) (hs : ds ⊆ ds') :
    h.edgeCount ds ≤ h.edgeCount ds' := by
  obtain ⟨ds₁, hp, hsub⟩ := List.subperm_of_subset hn hs
  have hlength : h.edgeCount ds₁ = h.edgeCount ds := (hp.flatMap_right h.parentsOf).length_eq
  rw [← hlength]
  exact (hsub.flatMap h.parentsOf).length_le

/-! ### Growing hierarchies -/

/-- Every class of the first hierarchy is in the second one, under its number. -/
def Grows (h h' : Hierarchy σ α) : Prop :=
  ∀ id cls, h.class? id = some cls → h'.class? id = some cls

theorem Grows.refl (h : Hierarchy σ α) : h.Grows h :=
  fun _ _ hc => hc

theorem Grows.trans {h'' : Hierarchy σ α} (hg : h.Grows h') (hg' : h'.Grows h'') :
    h.Grows h'' :=
  fun id cls hc => hg' id cls (hg id cls hc)

/-- Numbers that were those of classes still are. -/
theorem Grows.lt_size (hg : h.Grows h') (hid : id.index < h.size) : id.index < h'.size := by
  obtain ⟨cls, hc⟩ := exists_class?_of_lt hid
  exact lt_size_of_class? (hg id cls hc)

/-- A class that was there is found unchanged. -/
theorem Grows.class?_eq (hg : h.Grows h') (hid : id.index < h.size) :
    h'.class? id = h.class? id := by
  obtain ⟨cls, hc⟩ := exists_class?_of_lt hid
  rw [hc, hg id cls hc]

theorem Grows.parentsOf_eq (hg : h.Grows h') (hid : id.index < h.size) :
    h'.parentsOf id = h.parentsOf id := by
  rw [parentsOf, parentsOf, hg.class?_eq hid]

theorem Grows.nameOf_eq (hg : h.Grows h') (hid : id.index < h.size) :
    h'.nameOf id = h.nameOf id := by
  rw [nameOf, nameOf, hg.class?_eq hid]

/-- The parents of a class stay its parents. -/
theorem Grows.extends (hg : h.Grows h') (he : h.Extends d p) : h'.Extends d p := by
  by_cases hd : d.index < h.size
  · rwa [Extends, hg.parentsOf_eq hd]
  · -- a class that is not there has no parents
    rw [Extends, parentsOf, class?_eq_none_of_not_lt hd] at he
    exact absurd he List.not_mem_nil

/-- Who descends from whom stays when the hierarchy grows, registered or not. -/
theorem Grows.descends (hg : h.Grows h') (hda : h.Descends d a) : h'.Descends d a :=
  Relation.ReflTransGen.mono (fun _ _ he => hg.extends he) _ _ hda

/-- The ancestry of a registered class does not change any more. -/
theorem Grows.descends_iff (hg : h.Grows h') (hd : d.index < h.size) :
    h'.Descends d a ↔ h.Descends d a := by
  refine ⟨fun hda => ?_, hg.descends⟩
  induction hda with
  | refl => exact .refl
  | tail _ he ih =>
    refine ih.tail ?_
    rwa [Extends, ← hg.parentsOf_eq (ih.lt_size hd)]

/-- A draft with a parent that is not there is turned down. -/
theorem register_of_some {h : Hierarchy σ α} {d : Draft σ α} {parent : ClassId}
    (hp : h.missingParent? d = some parent) :
    h.register d = .error (.unknownParent d.className parent) := by
  unfold register
  split
  · next other ho => rw [Option.some.inj (ho.symm.trans hp)]
  · next hn => cases hn.symm.trans hp

/-- A draft whose parents are all there becomes the next class. -/
theorem register_of_none {h : Hierarchy σ α} {d : Draft σ α} (hn : h.missingParent? d = none) :
    h.register d = .ok (h.push d.toClass (lt_of_missingParent?_eq_none hn)) := by
  unfold register
  split
  · next other ho => cases ho.symm.trans hn
  · rfl

/-- A class that is there after a registration is the new one, or it was there before. -/
theorem class?_of_register {d : Draft σ α} (hr : h.register d = .ok h')
    (hc : h'.class? id = some cls) : cls = d.toClass ∨ h.class? id = some cls := by
  unfold register at hr
  split at hr
  · cases hr
  · cases hr
    unfold class? push at hc
    rw [Array.getElem?_push] at hc
    split at hc
    · exact .inl (Option.some.inj hc).symm
    · exact .inr hc

/-- One class more changes none of the others. -/
theorem grows_push (h : Hierarchy σ α) (cls : Class σ α)
    (hp : ∀ p ∈ cls.parents, p.index < h.size) : h.Grows (h.push cls hp) := by
  intro id other ho
  have hid := lt_size_of_class? ho
  show (h.classes.push cls)[id.index]? = some other
  rw [Array.getElem?_push_lt hid, ← ho, class?]
  exact (Array.getElem?_eq_getElem hid).symm

end Lawbook.Hierarchy

/-
Lawbook/Proofs/Breadth.lean

Breadth first: the order in which the ancestors of a class are listed.

The walk from a class goes up level by level and leaves out what it met before.  It has a bound on
the levels only so that it can be defined; `Ascends` is the same walk without a bound, which ends as
soon as a level is empty (`ascends_iff`).

`sweep` goes up in the same way and leaves out nothing: it lists the ends of all ways upwards, the
shorter ways first, and those of one length in the order of the declarations.  The ancestors are the
classes of that list, each at its first place (`ancestors_eq_distinct_sweep`).  This is so because
whatever a level leaves out has its parents among what was met before, so it leads to nothing new
(`withNew_flatMap_fresh`).  Hence near ancestors come before far ones (`ancestors_nearest_first`).

Main result: `ancestors_transitive_closure`.
-/
import Lawbook.Proofs.Ancestry
import Mathlib.Order.Bounds.Basic

namespace Lawbook

/-! ### Lists with what is new behind them -/

section WithNew

variable {β : Type} [DecidableEq β]

/-- A list, and behind it the members of another one that are new, each at its first place. -/
def withNew (seen xs : List β) : List β :=
  xs.foldl (fun seen x => if x ∈ seen then seen else seen ++ [x]) seen

variable {x : β} {seen xs : List β}

theorem withNew_cons_of_mem (hx : x ∈ seen) : withNew seen (x :: xs) = withNew seen xs := by
  rw [withNew, List.foldl_cons, if_pos hx]
  rfl

theorem withNew_cons_of_not_mem (hx : x ∉ seen) :
    withNew seen (x :: xs) = withNew (seen ++ [x]) xs := by
  rw [withNew, List.foldl_cons, if_neg hx]
  rfl

/-- Members join one after the other, so a list can be added in two parts. -/
theorem withNew_append (seen xs ys : List β) :
    withNew seen (xs ++ ys) = withNew (withNew seen xs) ys :=
  List.foldl_append

theorem mem_withNew_iff : x ∈ withNew seen xs ↔ x ∈ seen ∨ x ∈ xs :=
  mem_foldl_distinct_iff xs seen x

/-- Where nothing is new, nothing joins. -/
theorem withNew_of_subset (hs : xs ⊆ seen) : withNew seen xs = seen := by
  induction xs with
  | nil => rfl
  | cons x xs ih =>
    obtain ⟨hx, hxs⟩ := List.cons_subset.1 hs
    rw [withNew_cons_of_mem hx, ih hxs]

/-- A list stays in front. -/
theorem prefix_withNew (seen xs : List β) : seen <+: withNew seen xs := by
  induction xs generalizing seen with
  | nil => exact List.prefix_rfl
  | cons x xs ih =>
    by_cases hx : x ∈ seen
    · rw [withNew_cons_of_mem hx]
      exact ih seen
    · rw [withNew_cons_of_not_mem hx]
      exact (List.prefix_append seen [x]).trans (ih _)

/-- What is put behind a list stands in relation to all that is before it, if all members that are
new stand in relation to all others. -/
theorem pairwise_withNew {R : β → β → Prop} (hs : seen.Pairwise R)
    (hx : ∀ y ∈ xs, y ∉ seen → ∀ x, x ∈ seen ∨ x ∈ xs → R x y) : (withNew seen xs).Pairwise R := by
  induction xs generalizing seen with
  | nil => exact hs
  | cons x xs ih =>
    by_cases hm : x ∈ seen
    · rw [withNew_cons_of_mem hm]
      refine ih hs fun y hy hn z hz => hx y (List.mem_cons_of_mem _ hy) hn z ?_
      exact hz.imp_right (List.mem_cons_of_mem _)
    -- the new member is seen from now on, and all that is still to come is behind it
    · rw [withNew_cons_of_not_mem hm]
      refine ih ?_ ?_
      · refine List.pairwise_append.2 ⟨hs, List.pairwise_singleton R x, fun z hz y hy => ?_⟩
        rw [List.mem_singleton.1 hy]
        exact hx x List.mem_cons_self hm z (.inl hz)
      · intro y hy hn z hz
        rw [List.mem_append, not_or] at hn
        refine hx y (List.mem_cons_of_mem _ hy) hn.1 z ?_
        rcases hz with hz | hz
        · rcases List.mem_append.1 hz with hz | hz
          · exact .inl hz
          · exact .inr (List.mem_singleton.1 hz ▸ List.mem_cons_self)
        · exact .inr (List.mem_cons_of_mem _ hz)

/-- **What is left out leads to nothing new.**  Where all that the members of `seen` lead to is in
`known`, the members of `xs` lead to the same new ones as those among them that are new. -/
theorem withNew_flatMap_fresh {f : β → List β} {known fresh : List β}
    (he : withNew seen xs = seen ++ fresh) (hk : ∀ x ∈ seen, f x ⊆ known) :
    withNew known (fresh.flatMap f) = withNew known (xs.flatMap f) := by
  induction xs generalizing seen known fresh with
  | nil =>
    have hnil : fresh = [] := List.self_eq_append_right.1 he
    rw [hnil]
  | cons x xs ih =>
    by_cases hm : x ∈ seen
    · rw [withNew_cons_of_mem hm] at he
      rw [List.flatMap_cons, withNew_append, withNew_of_subset (hk x hm), ih he hk]
    · -- the first of the new members is `x`, and what it leads to is known from here on
      rw [withNew_cons_of_not_mem hm] at he
      obtain ⟨rest, hrest⟩ := prefix_withNew (seen ++ [x]) xs
      rw [← hrest, List.append_assoc, List.append_cancel_left_eq] at he
      have hk' : ∀ y ∈ seen ++ [x], f y ⊆ withNew known (f x) := by
        intro y hy z hz
        rcases List.mem_append.1 hy with hy | hy
        · exact mem_withNew_iff.2 (.inl (hk y hy hz))
        · rw [List.mem_singleton.1 hy] at hz
          exact mem_withNew_iff.2 (.inr hz)
      rw [← he, List.singleton_append, List.flatMap_cons, List.flatMap_cons, withNew_append,
        withNew_append, ih hrest.symm hk']

end WithNew

namespace Hierarchy

variable {σ α : Type} {h : Hierarchy σ α} {root id d p a b : ClassId} {m n : Nat}
variable {seen level fresh out out' : List ClassId}

/-! ### The walk without a bound -/

/-- The walk up from `root` that has met `seen` and is at a level ends with `out`. -/
inductive Ascends (h : Hierarchy σ α) (root : ClassId) :
    List ClassId → List ClassId → List ClassId → Prop
  | done (seen : List ClassId) : Ascends h root seen [] seen
  /-- What is new on a level is met, and its parents are the next level. -/
  | next {seen level out : List ClassId} : level ≠ [] →
      Ascends h root (meet root seen level)
        (((meet root seen level).drop seen.length).flatMap h.parentsOf) out →
      Ascends h root seen level out

/-- The walk has one end at most. -/
theorem Ascends.unique (ho : h.Ascends root seen level out) (ho' : h.Ascends root seen level out') :
    out = out' := by
  -- whether the level is empty decides between the two rules
  induction ho with
  | done seen =>
    cases ho' with
    | done => rfl
    | next hne => exact absurd rfl hne
  | next hne _ ih =>
    cases ho' with
    | done => exact absurd rfl hne
    | next _ ho' => exact ih ho'

/-- The bound is high enough for the walk to end. -/
theorem Climbing.ascends (hc : Climbing h root n seen level) :
    h.Ascends root seen level (Hierarchy.climb h root n seen level) := by
  induction n generalizing seen level with
  | zero =>
    obtain rfl := hc.level_eq_nil
    exact .done seen
  | succ n ih =>
    by_cases hnil : level = []
    · rw [hnil, climb_nil]
      exact .done seen
    · obtain ⟨fresh, he, hn⟩ := exists_meet_eq_append root level seen hc.nodup
      refine .next hnil ?_
      rw [climb_succ n he, he, List.drop_left]
      exact ih (hc.next he hn)

/-- A bound that is higher than need be changes nothing. -/
theorem Climbing.mono (hc : Climbing h root n seen level) (hn : n ≤ m) :
    Climbing h root m seen level :=
  ⟨hc.seen_above, hc.level_above, hc.nodup, hc.parents,
    fun x hx => Nat.lt_of_lt_of_le (hc.bound x hx) hn⟩

/-- A bound that is large enough does not matter for the walk. -/
theorem ancestors_eq_climb (hn : id.index ≤ n) :
    h.ancestors id = climb h id n [] (h.parentsOf id) :=
  (climbing_start h id).ascends.unique ((climbing_start h id).mono hn).ascends

/-- **The walk up from a class ends with its ancestors**, and with nothing else. -/
theorem ascends_iff : h.Ascends id [] (h.parentsOf id) out ↔ out = h.ancestors id := by
  constructor
  · exact fun ho => ho.unique (climbing_start h id).ascends
  · rintro rfl
    exact (climbing_start h id).ascends

/-! ### All ways upwards, level by level -/

/-- The ends of all ways upwards that start with one of a level, up to a length: the shorter ways
first, and those of one length in the order of the declarations. -/
def sweep (h : Hierarchy σ α) : Nat → List ClassId → List ClassId
  | 0, _ => []
  | n + 1, level => level ++ h.sweep n (level.flatMap h.parentsOf)

/-- A level of the walk has the new members of a list, since the root is not among them. -/
theorem Climbing.meet_eq_withNew (hc : Climbing h root n seen level) :
    meet root seen level = withNew seen level := by
  have hroot : ∀ x ∈ level, x ≠ root := fun x hx => ne_of_transGen (hc.level_above x hx)
  clear hc
  unfold meet withNew
  refine List.foldl_ext _ _ _ fun met x hx => ?_
  simp only [hroot x hx, false_or]

/-- A walk that leaves out what it met before meets the same classes in the same order as one that
leaves out nothing. -/
theorem Climbing.climb_eq_withNew (hc : Climbing h root n seen level) {all : List ClassId}
    (he : withNew seen level = withNew seen all) :
    Hierarchy.climb h root n seen level = withNew seen (h.sweep n all) := by
  induction n generalizing seen level all with
  | zero => rfl
  | succ n ih =>
    obtain ⟨fresh, hmeet, hn⟩ := exists_meet_eq_append root level seen hc.nodup
    have hlevel : withNew seen level = seen ++ fresh := hc.meet_eq_withNew ▸ hmeet
    have hparents : ∀ x ∈ seen, h.parentsOf x ⊆ seen ++ fresh := by
      intro x hx p hp
      rw [← hlevel]
      exact mem_withNew_iff.2 (hc.parents x hx p hp)
    rw [climb_succ n hmeet,
      ih (hc.next hmeet hn) (withNew_flatMap_fresh (he.symm.trans hlevel) hparents), sweep,
      withNew_append, ← he, hlevel]

/-- **The ancestors are the ends of all ways upwards**, each at its first place. -/
theorem ancestors_eq_distinct_sweep (hn : id.index ≤ n) :
    h.ancestors id = distinct (h.sweep n (h.parentsOf id)) := by
  rw [ancestors_eq_climb hn]
  exact ((climbing_start h id).mono hn).climb_eq_withNew rfl

/-! ### Near and far ancestors -/

/-- A way of some parent edges upwards from a class. -/
inductive Way (h : Hierarchy σ α) (d : ClassId) : Nat → ClassId → Prop
  | start : Way h d 0 d
  | up {n : Nat} {p a : ClassId} : Way h d n p → h.Extends p a → Way h d (n + 1) a

/-- Whatever way there is to the second class, there is one to the first that is not longer. -/
def Nearer (h : Hierarchy σ α) (d a b : ClassId) : Prop :=
  ∀ n, h.Way d n b → ∃ m, m ≤ n ∧ h.Way d m a

theorem way_zero_iff : h.Way d 0 a ↔ a = d := by
  constructor
  · rintro ⟨⟩
    rfl
  · rintro rfl
    exact .start

/-- A way of one step more ends in a parent of where the shorter one ends. -/
theorem way_succ_iff : h.Way d (n + 1) a ↔ ∃ p, h.Way d n p ∧ h.Extends p a := by
  constructor
  · rintro ⟨⟩
    exact ⟨_, ‹_›, ‹_›⟩
  · rintro ⟨p, hp, he⟩
    exact .up hp he

theorem Way.transGen (hw : h.Way d (n + 1) a) : Relation.TransGen h.Extends d a := by
  induction n generalizing a with
  | zero =>
    obtain ⟨p, hp, he⟩ := way_succ_iff.1 hw
    rw [way_zero_iff.1 hp] at he
    exact .single he
  | succ n ih =>
    obtain ⟨p, hp, he⟩ := way_succ_iff.1 hw
    exact (ih hp).tail he

/-- What is known before the level of the ways of `n + 1` edges: what was met lies at most `n` edges
above `d`, and is listed from near to far. -/
structure Sweeping (h : Hierarchy σ α) (d : ClassId) (n : Nat) (seen level : List ClassId) :
    Prop where
  near : ∀ a ∈ seen, ∃ m, m ≤ n ∧ h.Way d m a
  met : ∀ m, m ≤ n → ∀ a, h.Way d m a → a = d ∨ a ∈ seen
  mem_level_iff : ∀ a, a ∈ level ↔ h.Way d (n + 1) a
  sorted : seen.Pairwise (h.Nearer d)

theorem sweeping_start (h : Hierarchy σ α) (d : ClassId) :
    h.Sweeping d 0 [] (h.parentsOf d) where
  near := by simp
  met := by
    intro m hm a ha
    obtain rfl := Nat.le_zero.1 hm
    exact .inl (way_zero_iff.1 ha)
  mem_level_iff := by
    intro a
    simp [way_succ_iff, way_zero_iff, Extends]
  sorted := List.Pairwise.nil

/-- A class that is new on a level lies farther away than all that were met before, and as far as
all others of the level. -/
theorem Sweeping.next (hs : h.Sweeping d n seen level) :
    h.Sweeping d (n + 1) (withNew seen level) (level.flatMap h.parentsOf) where
  near := by
    intro a ha
    rcases mem_withNew_iff.1 ha with ha | ha
    · obtain ⟨m, hm, hw⟩ := hs.near a ha
      exact ⟨m, Nat.le_succ_of_le hm, hw⟩
    · exact ⟨n + 1, Nat.le_refl _, (hs.mem_level_iff a).1 ha⟩
  met := by
    intro m hm a hw
    rcases Nat.le_succ_iff.1 hm with hm | rfl
    · exact (hs.met m hm a hw).imp_right fun ha => mem_withNew_iff.2 (.inl ha)
    · exact .inr (mem_withNew_iff.2 (.inr ((hs.mem_level_iff a).2 hw)))
  mem_level_iff := by
    intro a
    rw [List.mem_flatMap, way_succ_iff]
    exact exists_congr fun p => and_congr_left fun _ => hs.mem_level_iff p
  sorted := by
    refine pairwise_withNew hs.sorted fun b hb hnew a ha m hw => ?_
    -- all that lies at most `n` edges above was met before
    have hfar : n + 1 ≤ m := by
      by_contra hm
      rcases hs.met m (by omega) b hw with rfl | hseen
      · exact ne_of_transGen ((hs.mem_level_iff b).1 hb).transGen rfl
      · exact hnew hseen
    rcases ha with ha | ha
    · obtain ⟨m', hm', hw'⟩ := hs.near a ha
      exact ⟨m', by omega, hw'⟩
    · exact ⟨n + 1, hfar, (hs.mem_level_iff a).1 ha⟩

/-- The classes that the sweeps list come in the order of their distance. -/
theorem Sweeping.pairwise (hs : h.Sweeping d n seen level) (m : Nat) :
    (withNew seen (h.sweep m level)).Pairwise (h.Nearer d) := by
  induction m generalizing n seen level with
  | zero => exact hs.sorted
  | succ m ih =>
    rw [sweep, withNew_append]
    exact ih hs.next

/-- **Near ancestors come before far ones.** -/
theorem ancestors_nearest_first (h : Hierarchy σ α) (id : ClassId) :
    (h.ancestors id).Pairwise (h.Nearer id) := by
  rw [ancestors_eq_distinct_sweep (Nat.le_refl _)]
  exact (sweeping_start h id).pairwise _

/-! ### The ancestors and the order of descent -/

/-- The classes `as` are listed as the ancestors of the class `id`. -/
structure Lists (h : Hierarchy σ α) (id : ClassId) (as : List ClassId) : Prop where
  /-- The walk up from the class ends, and ends with them. -/
  ascends_iff : ∀ out, h.Ascends id [] (h.parentsOf id) out ↔ out = as
  /-- They are the classes that one or more parent edges lead to, -/
  mem_iff : ∀ a, a ∈ as ↔ Relation.TransGen h.Extends id a
  /-- each once, -/
  nodup : as.Nodup
  not_mem_self : id ∉ as
  index_lt : ∀ a ∈ as, a.index < id.index
  /-- the ones with a shorter shortest way first, -/
  nearest_first : as.Pairwise fun a b => ∀ m n,
    IsLeast {k | h.Way id k a} m → IsLeast {k | h.Way id k b} n → m ≤ n
  /-- and else in the order in which the declarations of parents, read level by level, come to
  them. -/
  eq_distinct_sweep : ∀ n, id.index ≤ n → as = distinct (h.sweep n (h.parentsOf id))

/-- To descend is a partial order. -/
structure Orders (h : Hierarchy σ α) : Prop where
  isSubclass_iff : ∀ d a, h.isSubclass d a = true ↔ Relation.ReflTransGen h.Extends d a
  refl : ∀ d, h.isSubclass d d = true
  antisymm : ∀ d a, h.isSubclass d a = true → h.isSubclass a d = true → d = a
  trans : ∀ d a b, h.isSubclass d a = true → h.isSubclass a b = true → h.isSubclass d b = true

/-- **The ancestors of a class are listed exactly, once each, and the nearer ones first.** -/
theorem lists_ancestors (h : Hierarchy σ α) (id : ClassId) : h.Lists id (h.ancestors id) where
  ascends_iff := fun _ => Hierarchy.ascends_iff
  mem_iff := fun _ => mem_ancestors_iff
  nodup := ancestors_nodup h id
  not_mem_self := fun hm => ne_of_transGen (mem_ancestors_iff.1 hm) rfl
  index_lt := by
    intro a ha
    obtain ⟨p, hp, he⟩ := Relation.TransGen.tail'_iff.1 (mem_ancestors_iff.1 ha)
    exact Nat.lt_of_lt_of_le he.lt (Descends.index_le hp)
  nearest_first := by
    refine (ancestors_nearest_first h id).imp fun {a b} hnear m n hm hn => ?_
    obtain ⟨k, hk, hw⟩ := hnear n hn.1
    exact Nat.le_trans (hm.2 hw) hk
  eq_distinct_sweep := fun _ hn => ancestors_eq_distinct_sweep hn

theorem orders (h : Hierarchy σ α) : h.Orders where
  isSubclass_iff := fun _ _ => Hierarchy.isSubclass_iff
  refl := fun _ => Hierarchy.isSubclass_iff.2 .refl
  antisymm := by
    intro d a hda had
    have hle := (Hierarchy.isSubclass_iff.1 hda).index_le
    have hge := (Hierarchy.isSubclass_iff.1 had).index_le
    exact ClassId.ext (Nat.le_antisymm hge hle)
  trans := by
    intro d a b hda hab
    rw [Hierarchy.isSubclass_iff] at *
    exact hda.trans hab

/-- **The ancestors are the transitive closure of the parents**, for every hierarchy and every
number, whether there is a class of that number or not: the walk ends, and lists them each once and
nearest first.  To be a subclass is the reflexive and transitive closure, which is a partial
order. -/
theorem ancestors_transitive_closure (h : Hierarchy σ α) :
    (∀ id, h.Lists id (h.ancestors id)) ∧ h.Orders :=
  ⟨h.lists_ancestors, h.orders⟩

end Hierarchy

end Lawbook

/-
Lawbook/Proofs/Declarations.lean

Declarations: a table of declared classes as the replay of its journal.

Subjects have values of different types, and one table serves them all.  An operation on it is
given the registry and the host that it meets; whatever these say, an operation files at most one
entry in a journal.  A declaration is filed when it is made, with or without a validation, and a
validation of what is declared is filed when it succeeds.  The entry alone decides what becomes of
the table (`Filing.table_carry`).

So the table after a run is the replay of the journal, and what it says of a subject can be read
off the entries for that subject, one entry at a time (`Filed.replay_tells`).

Main result: `Filing.table_recounts`.
-/
import Lawbook.Instance
import Mathlib.Data.List.Induction

namespace Lawbook

variable {κ ω σ α : Type}

/-! ### Operations on a table -/

namespace InstanceTable

variable [DecidableEq κ] (t : InstanceTable κ) (key other : κ)

theorem membership?_declare (id : ClassId) : (t.declare key id).membership? other =
    if key = other then some (((t.membership? key).getD .empty).declare id)
    else t.membership? other :=
  membership?_set ..

/-- The table in which the declared classes of a subject, if there are any, are validated. -/
def confirm : InstanceTable κ :=
  match t.membership? key with
  | none => t
  | some m => t.set key { m with validated := true }

theorem membership?_confirm : (t.confirm key).membership? other =
    if key = other then (t.membership? key).map fun m => { m with validated := true }
    else t.membership? other := by
  unfold confirm
  split
  · next hm =>
    split
    · next hk => rw [← hk, hm, Option.map_none]
    · rfl
  · next m hm => rw [membership?_set, hm, Option.map_some]

variable [Inspectable α]

/-- A validation for a subject without declared classes is turned down. -/
theorem validate_undeclared {sub : Subject κ ω α} (hn : t.membership? sub.key = none)
    (h : Hierarchy (World ω) α) (k : GeneratorId) (c : Config) (w : World ω) :
    t.validate h sub k c w = ((.error (.noDeclaredClasses sub.name), t), w, []) := by
  rw [validate, hn]
  rfl

/-- A validation of what is declared returns what the direct validation says, and keeps a
success. -/
theorem value_validate {sub : Subject κ ω α} {m : Membership}
    (hm : t.membership? sub.key = some m) (h : Hierarchy (World ω) α) (k : GeneratorId)
    (c : Config) (w : World ω) :
    (t.validate h sub k c).value w =
      match (validateAll h sub k m c).value w with
      | .success => (.ok (), t.confirm sub.key)
      | .failure report =>
        (.error (.lawViolation sub.name (", ".intercalate (m.classes.map h.nameOf)) report),
          t) := by
  simp only [validate, confirm, hm, Run.value_bind]
  cases (validateAll h sub k m c).value w <;> rfl

variable (r : Registry σ α) (id : ClassId) (g : Generator σ α) (c : Config) (s : σ)

/-- An enrollment for a class that is not there is turned down. -/
theorem enroll_unknown (hc : r.hierarchy.class? id = none) :
    t.enroll r key id g c s = ((.error (.badClass (.unknownClass id)), t, r), s, []) := by
  simp [enroll, Hierarchy.find, hc]

/-- An enrollment is a validation that declares the class if it succeeds. -/
theorem enroll_eq {cls : Class σ α} (hc : r.hierarchy.class? id = some cls) :
    t.enroll r key id g c s =
      (match (r.validate id g c).value s with
        | (.success, r') => (.ok (), t.declare key id, r')
        | (.failure report, r') => (.error (.lawViolation g.name cls.name report), t, r'),
        (r.validate id g c).final s, (r.validate id g c).events s) := by
  simp only [enroll, Hierarchy.find, hc, Run.bind_apply, Run.value, Run.final, Run.events]
  obtain ⟨⟨verdict, r'⟩, s', es⟩ := r.validate id g c s
  cases verdict <;> simp

end InstanceTable

/-! ### The journal of a table -/

/-- What is filed of an operation on a table. -/
inductive Filed (κ : Type) where
  /-- A subject was declared an instance of a class. -/
  | declared (key : κ) (id : ClassId)
  /-- The declared classes of a subject were validated with success. -/
  | confirmed (key : κ)

namespace Filed

variable {key key' : κ} {id : ClassId} {e : Filed κ} {es : List (Filed κ)}

/-- What becomes of a table with an entry of the journal. -/
def enter [DecidableEq κ] (t : InstanceTable κ) : Filed κ → InstanceTable κ
  | declared key id => t.declare key id
  | confirmed key => t.confirm key

/-- The table that a journal leads to. -/
def replay [DecidableEq κ] (es : List (Filed κ)) : InstanceTable κ :=
  es.foldl enter .empty

/-- The class that an entry declares for a subject. -/
def declared? [DecidableEq κ] (key : κ) : Filed κ → Option ClassId
  | declared other id => if other = key then some id else none
  | confirmed _ => none

/-- The classes that were declared for a subject, in order. -/
def declaredFor [DecidableEq κ] (key : κ) (es : List (Filed κ)) : List ClassId :=
  es.filterMap (declared? key)

/-- A subject was validated with success, and was not declared again after that. -/
def ConfirmedLast (key : κ) (es : List (Filed κ)) : Prop :=
  ∃ before after, es = before ++ confirmed key :: after ∧ ∀ id, declared key id ∉ after

theorem confirmedLast_append_singleton : ConfirmedLast key (es ++ [e]) ↔
    e = confirmed key ∨ (ConfirmedLast key es ∧ ∀ id, e ≠ declared key id) := by
  constructor
  · rintro ⟨before, after, heq, hno⟩
    rcases List.eq_nil_or_concat after with rfl | ⟨after, last, rfl⟩
    · exact .inl (List.singleton_inj.1 (List.append_inj' heq rfl).2)
    · rw [List.concat_eq_append, ← List.cons_append, ← List.append_assoc] at heq
      rw [List.concat_eq_append] at hno
      obtain ⟨rfl, hlast⟩ := List.append_inj' heq rfl
      obtain rfl := List.singleton_inj.1 hlast
      refine .inr ⟨⟨before, after, rfl, fun id hm => hno id (List.mem_append_left _ hm)⟩, ?_⟩
      rintro id rfl
      exact hno id (List.mem_append_right _ List.mem_cons_self)
  · rintro (rfl | ⟨⟨before, after, rfl, hno⟩, hne⟩)
    · exact ⟨es, [], rfl, fun _ => List.not_mem_nil⟩
    · refine ⟨before, after ++ [e], by rw [List.append_assoc, List.cons_append], fun id hm => ?_⟩
      rcases List.mem_append.1 hm with hm | hm
      · exact hno id hm
      · exact hne id (List.mem_singleton.1 hm).symm

variable [DecidableEq κ]

theorem mem_declaredFor_iff : id ∈ declaredFor key es ↔ declared key id ∈ es := by
  rw [declaredFor, List.mem_filterMap]
  constructor
  · rintro ⟨e, he, hd⟩
    cases e with
    | confirmed other => cases hd
    | declared other id' =>
      obtain ⟨rfl, ⟨⟩⟩ := Option.ite_none_right_eq_some.1 hd
      exact he
  · exact fun he => ⟨_, he, if_pos rfl⟩

theorem declaredFor_append_singleton (e : Filed κ) :
    declaredFor key (es ++ [e]) = declaredFor key es ++ (e.declared? key).toList := by
  rw [declaredFor, List.filterMap_append]
  cases hd : e.declared? key <;> simp [hd, declaredFor]

theorem replay_append_singleton (e : Filed κ) : replay (es ++ [e]) = enter (replay es) e := by
  rw [replay, List.foldl_append]
  rfl

end Filed

/-! ### What a journal says of a subject -/

namespace Filed

variable [DecidableEq κ]

/-- What a journal says of the declared classes of a subject. -/
structure Tells (key : κ) (es : List (Filed κ)) (o : Option Membership) : Prop where
  /-- There are some exactly if the subject was declared. -/
  isSome_iff : o.isSome ↔ ∃ id, declared key id ∈ es
  /-- They are the classes that were declared, each once, in the order of their first
  declarations. -/
  classes_eq : ∀ m, o = some m → m.classes = distinct (declaredFor key es)
  ne_nil : ∀ m, o = some m → m.classes ≠ []
  /-- They are validated exactly if a validation succeeded after the last declaration. -/
  validated_iff : ∀ m, o = some m → (m.validated = true ↔ ConfirmedLast key es)

variable {key : κ} {es : List (Filed κ)} {o : Option Membership} {e : Filed κ}

theorem tells_nil (key : κ) : Tells key [] none :=
  ⟨by simp, by simp, by simp, by simp⟩

/-- An entry for another subject says nothing new. -/
theorem Tells.elsewhere (ht : Tells key es o) (hd : ∀ id, e ≠ declared key id)
    (hc : e ≠ confirmed key) : Tells key (es ++ [e]) o := by
  have hlast : ConfirmedLast key (es ++ [e]) ↔ ConfirmedLast key es := by
    rw [confirmedLast_append_singleton, or_iff_right hc, and_iff_left hd]
  have hfor : declaredFor key (es ++ [e]) = declaredFor key es := by
    cases e with
    | confirmed _ => simp [declaredFor_append_singleton, declared?]
    | declared key' id =>
      have hk : key' ≠ key := fun hk => hd id (hk ▸ rfl)
      simp [declaredFor_append_singleton, declared?, hk]
  refine ⟨?_, fun m hm => ?_, ht.ne_nil, fun m hm => ?_⟩
  · rw [ht.isSome_iff]
    refine exists_congr fun id => ?_
    rw [List.mem_append, List.mem_singleton, or_iff_left (hd id).symm]
  · rw [hfor, ht.classes_eq m hm]
  · rw [hlast, ht.validated_iff m hm]

/-- A declaration puts a class behind those that were declared before, and calls for a
validation. -/
theorem Tells.declared (ht : Tells key es o) (id : ClassId) :
    Tells key (es ++ [.declared key id]) (some ((o.getD .empty).declare id)) := by
  have hold : (o.getD .empty).classes = distinct (declaredFor key es) := by
    cases o with
    | some m => exact ht.classes_eq m rfl
    | none =>
      -- nothing was declared before
      have hnone : declaredFor key es = [] := by
        refine List.eq_nil_iff_forall_not_mem.2 fun id' hid => ?_
        cases ht.isSome_iff.2 ⟨id', mem_declaredFor_iff.1 hid⟩
      rw [hnone]
      rfl
  have hlast : ¬ ConfirmedLast key (es ++ [.declared key id]) := by
    simp [confirmedLast_append_singleton]
  refine ⟨by simp, ?_, ?_, ?_⟩
  · rintro m ⟨⟩
    rw [declaredFor_append_singleton, declared?, if_pos rfl, Option.toList_some,
      distinct_append_singleton, Membership.declare, hold]
  · rintro m ⟨⟩
    unfold Membership.declare
    dsimp only
    split
    · next hmem => exact List.ne_nil_of_mem hmem
    · exact List.append_ne_nil_of_right_ne_nil _ (List.cons_ne_nil _ _)
  · rintro m ⟨⟩
    exact iff_of_false Bool.false_ne_true hlast

/-- A success of a validation marks what was declared, and changes nothing else. -/
theorem Tells.confirmed (ht : Tells key es o) :
    Tells key (es ++ [.confirmed key]) (o.map fun m => { m with validated := true }) := by
  have hlast : ConfirmedLast key (es ++ [.confirmed key]) :=
    confirmedLast_append_singleton.2 (.inl rfl)
  have hfor : declaredFor key (es ++ [.confirmed key]) = declaredFor key es := by
    simp [declaredFor_append_singleton, declared?]
  refine ⟨?_, ?_, ?_, ?_⟩
  · rw [Option.isSome_map, ht.isSome_iff]
    simp
  all_goals
    intro m' hm'
    obtain ⟨m, hm, rfl⟩ := Option.map_eq_some_iff.1 hm'
  · rw [hfor, ← ht.classes_eq m hm]
  · exact ht.ne_nil m hm
  · exact iff_of_true rfl hlast

/-- **A table says what its journal says**, entry by entry. -/
theorem replay_tells (es : List (Filed κ)) (key : κ) :
    Tells key es ((replay es).membership? key) := by
  induction es using List.reverseRecOn with
  | nil => exact tells_nil key
  | append_singleton es e ih =>
    rw [replay_append_singleton]
    cases e with
    | declared key' id =>
      rw [enter, InstanceTable.membership?_declare]
      split
      · next hk => exact hk ▸ (hk ▸ ih).declared id
      · next hk => exact ih.elsewhere (by rintro id' ⟨⟩; exact hk rfl) (by simp)
    | confirmed key' =>
      rw [enter, InstanceTable.membership?_confirm]
      split
      · next hk => exact hk ▸ (hk ▸ ih).confirmed
      · next hk => exact ih.elsewhere (by simp) (by rintro ⟨⟩; exact hk rfl)

end Filed

/-! ### Runs of operations -/

/-- An operation on a table, for a subject with values of any type.  It is given the classes, or the
whole registry, that it meets. -/
inductive Filing (κ ω : Type) : Type 1 where
  /-- A subject is declared an instance of a class, without validation. -/
  | declare (key : κ) (id : ClassId)
  /-- The declared classes of a subject are validated. -/
  | validate {α : Type} [Inspectable α] (h : Hierarchy (World ω) α) (sub : Subject κ ω α)
      (k : GeneratorId) (c : Config)
  /-- A subject is declared an instance of a class, if validation succeeds. -/
  | enroll {α : Type} [Inspectable α] (r : Registry (World ω) α) (key : κ) (id : ClassId)
      (g : Generator (World ω) α) (c : Config)

namespace Filing

/-- An entry for an operation that went well. -/
def filed (e : Filed κ) : Except InstanceError Unit → List (Filed κ)
  | .ok _ => [e]
  | .error _ => []

variable [DecidableEq κ]

/-- Carries an operation out, and files what lasts of it. -/
def carry : Filing κ ω → Run (InstanceTable κ × World ω) (Filed κ) (Except InstanceError Unit)
  | declare key id => fun (t, w) => (.ok (), (t.declare key id, w), [.declared key id])
  | @validate _ _ _ _ h sub k c => fun (t, w) =>
    match t.validate h sub k c w with
    | ((outcome, t'), w', _) => (outcome, (t', w'), filed (.confirmed sub.key) outcome)
  | @enroll _ _ _ _ r key id g c => fun (t, w) =>
    match t.enroll r key id g c w with
    | ((outcome, t', _), w', _) => (outcome, (t', w'), filed (.declared key id) outcome)

/-- **What becomes of the table is what is filed**, whatever the registry and the host say. -/
theorem table_carry (q : Filing κ ω) (x : InstanceTable κ × World ω) :
    (q.carry.final x).1 = (q.carry.events x).foldl Filed.enter x.1 := by
  obtain ⟨t, w⟩ := x
  cases q with
  | declare key id => rfl
  | validate h sub k c =>
    show ((t.validate h sub k c).value w).2 =
      (filed (.confirmed sub.key) ((t.validate h sub k c).value w).1).foldl Filed.enter t
    cases hm : t.membership? sub.key with
    | none => rw [Run.value, t.validate_undeclared hm]; rfl
    | some m =>
      rw [t.value_validate hm]
      cases (validateAll h sub k m c).value w <;> rfl
  | enroll r key id g c =>
    show ((t.enroll r key id g c).value w).2.1 =
      (filed (.declared key id) ((t.enroll r key id g c).value w).1).foldl Filed.enter t
    cases hc : r.hierarchy.class? id with
    | none => rw [Run.value, t.enroll_unknown key r id g c w hc]; rfl
    | some cls =>
      rw [Run.value, t.enroll_eq key r id g c w hc]
      obtain ⟨verdict, r'⟩ := (r.validate id g c).value w
      cases verdict <;> rfl

/-- The table after a run is the replay of what was filed in the run. -/
theorem table_mapM (qs : List (Filing κ ω)) (x : InstanceTable κ × World ω) :
    ((qs.mapM carry).final x).1 = ((qs.mapM carry).events x).foldl Filed.enter x.1 := by
  induction qs generalizing x with
  | nil => rfl
  | cons q qs ih =>
    rw [Run.final_mapM_cons, Run.events_mapM_cons, List.foldl_append, ih, table_carry]

/-- **A table recounts the history of its subjects.**  After any run of declarations, validations
and enrollments, a subject has an entry exactly if it was declared.  The entry holds the declared
classes, each once, in the order of their first declarations, and it is marked as validated exactly
if a validation of the subject succeeded after its last declaration.  A validation complains of
missing declarations exactly if there is no entry, and one that fails changes nothing. -/
theorem table_recounts (qs : List (Filing κ ω)) (w : World ω) :
    (∀ key, Filed.Tells key ((qs.mapM carry).events (.empty, w))
      (((qs.mapM carry).final (.empty, w)).1.membership? key)) ∧
    ∀ {α : Type} [Inspectable α] (h : Hierarchy (World ω) α) (sub : Subject κ ω α)
      (k : GeneratorId) (c : Config) (w' : World ω),
      let t := ((qs.mapM carry).final (.empty, w)).1
      let answer := (t.validate h sub k c).value w'
      ((∃ name, answer.1 = .error (.noDeclaredClasses name)) ↔ t.membership? sub.key = none) ∧
        ∀ e, answer.1 = .error e → answer.2 = t := by
  refine ⟨fun key => ?_, ?_⟩
  · rw [table_mapM]
    exact Filed.replay_tells _ key
  · intro α _ h sub k c w' t answer
    cases hm : t.membership? sub.key with
    | none =>
      have hanswer : answer = (.error (.noDeclaredClasses sub.name), t) := by
        show (t.validate h sub k c w').1 = _
        rw [t.validate_undeclared hm]
      rw [hanswer]
      exact ⟨iff_of_true ⟨_, rfl⟩ rfl, fun _ _ => rfl⟩
    | some m =>
      -- the error of a failed validation is another one, and only a success marks the entry
      have hanswer := t.value_validate hm h k c w'
      revert hanswer
      show answer = _ → _
      cases (validateAll h sub k m c).value w' with
      | success =>
        rintro hanswer
        rw [hanswer]
        exact ⟨by simp, by simp⟩
      | failure report =>
        rintro hanswer
        rw [hanswer]
        exact ⟨by simp, fun _ _ => rfl⟩

end Filing

end Lawbook

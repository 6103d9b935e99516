/-
Lawbook/Proofs/Enrollment.lean

Enrollment: a subject joins a class if validation succeeds, and else nothing is declared.

An enrollment moves three things at once: the records of the registry, the table of declarations,
and what can be asked about instances afterwards.  It goes to the registry first, which keeps what
it records in any case; the table follows only a success (`InstanceTable.enroll_eq`).  A success is
recorded for the class together with all its ancestors, since the accounts of the registry are in
order, and these are the classes of which the subject is an instance then.

Main result: `Desk.enroll_allOrNothing`.
-/
import Lawbook.Proofs.Account
import Lawbook.Proofs.Declarations

namespace Lawbook

variable {κ κ' σ α : Type}

/-! ### Instances -/

theorem Membership.isInstanceOf_iff {h : Hierarchy σ α} {m : Membership} {id : ClassId} :
    m.isInstanceOf h id ↔ ∃ d ∈ m.classes, h.Descends d id := by
  simp only [isInstanceOf, List.any_eq_true, Hierarchy.isSubclass_iff]

theorem InstanceTable.isInstance_iff [DecidableEq κ] {t : InstanceTable κ} {h : Hierarchy σ α}
    {key : κ} {id : ClassId} : t.isInstance h key id ↔
      ∃ m, t.membership? key = some m ∧ ∃ d ∈ m.classes, h.Descends d id := by
  unfold isInstance
  cases t.membership? key with
  | none => simp
  | some m => simp [Membership.isInstanceOf_iff]

/-! ### What a declaration adds -/

namespace InstanceTable

variable [DecidableEq κ]

/-- The classes that a subject was declared against; none without an entry. -/
def classesOf (t : InstanceTable κ) (key : κ) : List ClassId :=
  ((t.membership? key).map Membership.classes).getD []

/-- The second table has one declaration more than the first one. -/
structure Joins (t t' : InstanceTable κ) (key : κ) (id : ClassId) : Prop where
  /-- The class stands behind those that were declared, unless it was among them. -/
  classes_eq : t'.classesOf key = t.classesOf key ++ if id ∈ t.classesOf key then [] else [id]
  /-- The subject waits for a validation. -/
  validated_eq : (t'.membership? key).map Membership.validated = some false
  /-- No other entry changes. -/
  others_eq : ∀ other, other ≠ key → t'.membership? other = t.membership? other

theorem declare_joins (t : InstanceTable κ) (key : κ) (id : ClassId) :
    t.Joins (t.declare key id) key id := by
  have hkey : (t.declare key id).membership? key =
      some (((t.membership? key).getD .empty).declare id) := by
    rw [membership?_declare, if_pos rfl]
  have hold : ((t.membership? key).getD .empty).classes = t.classesOf key := by
    unfold classesOf
    cases t.membership? key <;> rfl
  refine ⟨?_, ?_, fun other hne => ?_⟩
  · rw [classesOf, hkey, Option.map_some, Option.getD_some, Membership.declare, hold]
    split <;> simp
  · rw [hkey]
    rfl
  · rw [membership?_declare, if_neg hne.symm]

theorem Joins.mem_classesOf {t t' : InstanceTable κ} {key : κ} {id : ClassId}
    (hj : t.Joins t' key id) : id ∈ t'.classesOf key := by
  rw [hj.classes_eq]
  split
  · next hm => exact List.mem_append_left _ hm
  · exact List.mem_append_right _ List.mem_cons_self

/-- A subject is an instance of what it was declared against, and of the ancestors of that. -/
theorem isInstance_of_mem {t : InstanceTable κ} {h : Hierarchy σ α} {key : κ} {d a : ClassId}
    (hd : d ∈ t.classesOf key) (hda : h.Descends d a) : t.isInstance h key a = true := by
  unfold classesOf at hd
  refine isInstance_iff.2 ?_
  cases hm : t.membership? key with
  | none => simp [hm] at hd
  | some m => exact ⟨m, rfl, d, by simpa [hm] using hd, hda⟩

end InstanceTable

/-! ### All or nothing -/

variable [Inspectable α]

/-- What an enrollment of the subject `key` in the class `id` comes to: from the table `t`, the
registry `r` and the host `s` it leads to `t'`, `r'` and `s'`. -/
structure Registry.Enrolls [DecidableEq κ] (r r' : Registry σ α) (t t' : InstanceTable κ)
    (key : κ) (id : ClassId) (g : Generator σ α) (c : Config) (s s' : σ)
    (outcome : Except InstanceError Unit) (es : List (Event α)) : Prop where
  /-- It succeeds exactly if the class is registered and holds. -/
  ok_iff : outcome = .ok () ↔
    id.index < r.hierarchy.size ∧ ((r.validate id g c).value s).1 = .success
  /-- A success is one declaration more, -/
  joins : outcome = .ok () → t.Joins t' key id
  /-- makes the subject an instance of the class and of all its ancestors, -/
  isInstance : outcome = .ok () →
    ∀ d, r.hierarchy.Descends id d → t'.isInstance r'.hierarchy key d = true
  /-- and comes with a record of success for all of them. -/
  recorded : outcome = .ok () →
    ∀ d, r.hierarchy.Descends id d → r'.ledger.verdict? g.id d = some .success
  /-- With an error, nothing is declared. -/
  table_eq : ∀ e, outcome = .error e → t' = t
  /-- The registry and the host go on as with a validation, whatever it says. -/
  validated : id.index < r.hierarchy.size → r' = ((r.validate id g c).value s).2 ∧
    s' = (r.validate id g c).final s ∧ es = (r.validate id g c).events s
  /-- For a class that is not there, nothing is sampled and nothing is recorded. -/
  unregistered : ¬ id.index < r.hierarchy.size →
    outcome = .error (.badClass (.unknownClass id)) ∧ r' = r ∧ s' = s ∧ es = []

/-- An enrollment that is refused declares nothing. -/
theorem Registry.Enrolls.refused [DecidableEq κ] {r r' : Registry σ α} {t : InstanceTable κ}
    {key : κ} {id : ClassId} {g : Generator σ α} {c : Config} {s s' : σ} {e : InstanceError}
    {es : List (Event α)}
    (hno : ¬ (id.index < r.hierarchy.size ∧ ((r.validate id g c).value s).1 = .success))
    (hvalidated : id.index < r.hierarchy.size → r' = ((r.validate id g c).value s).2 ∧
      s' = (r.validate id g c).final s ∧ es = (r.validate id g c).events s)
    (hunregistered : ¬ id.index < r.hierarchy.size →
      (.error e : Except InstanceError Unit) = .error (.badClass (.unknownClass id)) ∧
        r' = r ∧ s' = s ∧ es = []) :
    r.Enrolls r' t t key id g c s s' (.error e) es where
  ok_iff := iff_of_false (fun hok => by cases hok) hno
  joins := fun hok => by cases hok
  isInstance := fun hok => by cases hok
  recorded := fun hok => by cases hok
  table_eq := fun _ _ => rfl
  validated := hvalidated
  unregistered := hunregistered

/-- A success of a request is recorded for the requested class and all its ancestors. -/
theorem Registry.Validated.success_of_descends {Asks : Generator σ α → Config → Prop}
    {r r' : Registry σ α} {id d : ClassId} {g : Generator σ α} {c : Config} {s s' : σ}
    {plan : List ClassId} {es es' : List (Event α)}
    (hv : r.Validated r' id g c s s' .success plan es) (ha : Audited Asks r' es')
    (hd : r.hierarchy.Descends id d) : r'.ledger.verdict? g.id d = some .success :=
  ha.success_of_descends hv.recorded (hv.hierarchy_eq.symm ▸ hd)

/-- With accounts in order, an enrollment is all or nothing. -/
theorem Audited.enrolls [DecidableEq κ] {Asks : Generator σ α → Config → Prop} {r : Registry σ α}
    {es : List (Event α)} (ha : Audited Asks r es) (t : InstanceTable κ) (key : κ) (id : ClassId)
    (g : Generator σ α) (c : Config) (s : σ) :
    r.Enrolls ((t.enroll r key id g c).value s).2.2 t ((t.enroll r key id g c).value s).2.1 key id
      g c s ((t.enroll r key id g c).final s) ((t.enroll r key id g c).value s).1
      ((t.enroll r key id g c).events s) := by
  by_cases hid : id.index < r.hierarchy.size
  · obtain ⟨cls, hc⟩ := Hierarchy.exists_class?_of_lt hid
    obtain ⟨plan, hp⟩ := r.validate_settles id g c s hid
    have ha' := ha.validate id g c s
    rw [Run.value, Run.final, Run.events, t.enroll_eq key r id g c s hc]
    cases hv : (r.validate id g c).value s with
    | mk verdict r' =>
      rw [hv] at hp ha'
      have hsame : id.index < r.hierarchy.size → r' = ((r.validate id g c).value s).2 ∧
          (r.validate id g c).final s = (r.validate id g c).final s ∧
          (r.validate id g c).events s = (r.validate id g c).events s :=
        fun _ => ⟨by rw [hv], rfl, rfl⟩
      cases verdict with
      | success =>
        have hjoins := t.declare_joins key id
        exact {
          ok_iff := iff_of_true rfl ⟨hid, by rw [hv]⟩
          joins := fun _ => hjoins
          isInstance := fun _ d hd => InstanceTable.isInstance_of_mem hjoins.mem_classesOf
            (hp.hierarchy_eq.symm ▸ hd)
          recorded := fun _ d hd => hp.success_of_descends ha' hd
          table_eq := fun e he => by cases he
          validated := hsame
          unregistered := fun hn => absurd hid hn }
      | failure report =>
        -- the request was made and recorded, but the table is left alone
        exact .refused (by simp [hv]) hsame fun hn => absurd hid hn
  · have hc := Hierarchy.class?_eq_none_of_not_lt hid
    rw [Run.value, Run.final, Run.events, t.enroll_unknown key r id g c s hc]
    exact .refused (fun h => hid h.1) (fun h => absurd h hid) fun _ => ⟨rfl, rfl, rfl, rfl⟩

/-- **Enrollment is all or nothing.**  After any run of operations and with any table, an enrollment
succeeds exactly if the class is registered and its validation does.  Then the class is declared for
the subject and for nobody else, the subject is an instance of the class and of all its ancestors,
and all of them are recorded as holding for the generator.  Otherwise the table stays as it was;
for a class that is not there, so do the registry and the host. -/
theorem Desk.enroll_allOrNothing [DecidableEq κ] [DecidableEq κ'] (qs : List (Request κ σ α))
    (s₀ s : σ) (t : InstanceTable κ') (key : κ') (id : ClassId) (g : Generator σ α) (c : Config) :
    let r := (Desk.after qs s₀).registry
    let run := t.enroll r key id g c
    r.Enrolls (run.value s).2.2 t (run.value s).2.1 key id g c s (run.final s) (run.value s).1
      (run.events s) :=
  (Desk.after_audited qs s₀).enrolls t key id g c s

end Lawbook

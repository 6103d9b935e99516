/-
Lawbook/Proofs/Permanence.lean

Permanence: a verdict stays what it was, and asking again costs nothing.

The verdict that a request returns is the record of the requested class, and a record stays for
good.  So a request that comes again for the same generator, after whatever else, is answered from
the record: with the same text, without any work, and with the registry left as it is
(`Registry.validate_recorded`, `Desk.verdict_permanent`).

A record goes back to one operation, the first one after which it is there (`Desk.RecordedFor`), and
to the check that was made for the handle of this operation (`Desk.exists_recordedFor`,
`Desk.exists_account_of_validate`).

The line for a failure that is arrived at again never becomes the record of a class itself.  To
tell the two apart, whatever the names in them are, one counts a letter: it occurs in both headings
that a class may put over its failures, not in that line, and joining and trimming reports loses no
letters (`Hierarchy.joined_ne_again`).
-/
import Lawbook.Proofs.Account
import Mathlib.Data.List.Induction

namespace Lawbook

open Event Text

/-! ### Letters of a report -/

namespace Text

variable {c : Char}

/-- How often a character stands in a text. -/
def occurrences (c : Char) (s : String) : Nat :=
  s.toList.count c

theorem occurrences_append (c : Char) (s t : String) :
    occurrences c (s ++ t) = occurrences c s + occurrences c t := by
  rw [occurrences, String.toList_append, List.count_append]
  rfl

theorem count_dropWhile_isBlank (hc : isBlank c = false) (cs : List Char) :
    (cs.dropWhile isBlank).count c = cs.count c := by
  induction cs with
  | nil => rfl
  | cons d cs ih =>
    by_cases hd : isBlank d
    · have hne : d ≠ c := by
        rintro rfl
        rw [hd] at hc
        cases hc
      rw [List.dropWhile_cons_of_pos hd, ih, List.count_cons_of_ne hne]
    · rw [List.dropWhile_cons_of_neg hd]

/-- Trimming loses blanks only. -/
theorem occurrences_trimEnd (hc : isBlank c = false) (s : String) :
    occurrences c (trimEnd s) = occurrences c s := by
  rw [occurrences, trimEnd, String.toList_ofList, trimmedEnd, List.count_reverse,
    count_dropWhile_isBlank hc, List.count_reverse]
  rfl

/-- A text between two names has the letters of the names and its own. -/
theorem occurrences_between (c : Char) (a fixed b : String) :
    occurrences c (a ++ fixed ++ b) = occurrences c a + occurrences c b + occurrences c fixed := by
  rw [occurrences_append, occurrences_append]
  omega

end Text

namespace Verdict

/-- How often a character stands in the report of a failure. -/
def occurrences (c : Char) : Verdict → Nat
  | success => 0
  | failure report => Text.occurrences c report

variable {c : Char}

/-- A failure has the letters of its message, if the report on a blank message has none of them. -/
theorem occurrences_fail (hc : isBlank c = false) (he : Text.occurrences c emptyReport = 0)
    (message : String) : (fail message).occurrences c = Text.occurrences c message := by
  unfold fail
  split
  · next hb =>
    -- a blank message has no letters, and neither has what is reported instead this one
    have hnone : c ∉ message.toList := by
      intro hm
      have hblank : isBlank c := List.all_eq_true.1 hb c hm
      rw [hc] at hblank
      cases hblank
    rw [Text.occurrences, List.count_eq_zero.2 hnone]
    exact he
  · exact occurrences_trimEnd hc message

/-- Between two joined reports there are blanks only, so no letters are lost or won. -/
theorem occurrences_both (hc : isBlank c = false) (v w : Verdict) :
    (v.both w).occurrences c = v.occurrences c + w.occurrences c := by
  cases v with
  | success => rw [success_both, occurrences, Nat.zero_add]
  | failure a =>
    cases w with
    | success => rfl
    | failure b =>
      have hgap : c ∉ "\n\n".toList := by
        intro hm
        have hblank : isBlank c := List.all_eq_true.1 (by decide : isBlankText "\n\n") c hm
        rw [hc] at hblank
        cases hblank
      show Text.occurrences c (joinReports a b) = Text.occurrences c a + Text.occurrences c b
      rw [joinReports, occurrences_trimEnd hc, occurrences_between, Nat.add_comm
        (Text.occurrences c b)]
      exact congrArg _ (List.count_eq_zero.2 hgap)

theorem occurrences_under (hc : isBlank c = false) (he : Text.occurrences c emptyReport = 0)
    {v : Verdict} (hv : v ≠ .success) (heading : String) :
    (v.under heading).occurrences c = v.occurrences c + Text.occurrences c heading := by
  cases v with
  | success => exact absurd rfl hv
  | failure report =>
    show ((failure report).both (fail heading)).occurrences c = _
    rw [occurrences_both hc, occurrences_fail hc he]

end Verdict

namespace Hierarchy

variable {generator name : String}

/-- **What a class comes to is never the line for a class that failed already.**  Both headings have
the letter b once more than the names in them, and the line has it as often as its names. -/
theorem joined_ne_again (inherited : List Verdict) (own : Verdict) :
    joined generator name inherited own ≠ Verdict.fail (againLine name generator) := by
  have hb : isBlank 'b' = false := by decide
  have he : occurrences 'b' Verdict.emptyReport = 0 := by decide
  have hline : occurrences 'b' (againLine name generator) =
      occurrences 'b' name + occurrences 'b' generator + 0 :=
    occurrences_between 'b' name " already failed for " generator
  have hprerequisites : occurrences 'b' (prerequisitesHeading generator name) =
      occurrences 'b' generator + occurrences 'b' name + 1 :=
    occurrences_between 'b' generator " fails the prerequisites to be a " name
  have hown : occurrences 'b' (ownHeading generator name) =
      occurrences 'b' generator + occurrences 'b' name + 1 :=
    occurrences_between 'b' generator " does not obey the laws of " name
  intro heq
  have hcount := congrArg (Verdict.occurrences 'b') heq
  rw [Verdict.occurrences_fail hb he, hline, joined, Verdict.occurrences_both hb] at hcount
  by_cases hi : Verdict.all inherited = .success
  · by_cases ho : own = .success
    · -- nothing is wrong at all, but the line reports a failure
      rw [joined, hi, ho] at heq
      have hs := Verdict.isSuccess_fail (againLine name generator)
      rw [← heq] at hs
      cases hs
    · rw [Verdict.occurrences_under hb he ho, hown] at hcount
      omega
  · rw [Verdict.occurrences_under hb he hi, hprerequisites] at hcount
    omega

end Hierarchy

/-! ### Requests that come again -/

variable {κ σ α : Type} [Inspectable α]

namespace Registry

/-- A request on a recorded class returns the record, does no work and changes nothing. -/
theorem validate_recorded {r : Registry σ α} {id : ClassId} {g : Generator σ α} {cls : Class σ α}
    {v : Verdict} (hc : r.hierarchy.class? id = some cls)
    (hv : r.ledger.verdict? g.id id = some v) (c : Config) (s : σ) :
    r.validate id g c s = ((v, r), s,
      [reached id, logged (.recordFound cls.name g.name), logged (r.closing id g v)]) := by
  have hvisit := Hierarchy.visit_known (g := g) (c := c) (n := id.index)
    (s := (⟨s, r.ledger, []⟩ : Survey σ)) hc hv
  rw [validate_eq, hvisit]
  rfl

end Registry

/-- What a class is recorded with is not the line for a class that failed already. -/
theorem Account.ne_again {h : Hierarchy σ α} {l : Ledger} {es : List (Event α)}
    {g : Generator σ α} {c : Config} {s : σ} {cls : Class σ α} {d : ClassId} {v : Verdict}
    (ha : Account h l es g c s cls d v) :
    v ≠ Verdict.fail (Hierarchy.againLine cls.name g.name) := by
  obtain ⟨inherited, -, rfl⟩ := ha.verdict_eq
  exact Hierarchy.joined_ne_again inherited _

/-! ### The operation that made a record -/

namespace Desk

variable [DecidableEq κ]

/-- Among the operations `qs` there is one before which the class `d` had no record for the
generator `k`, and after which it had the record `v`; and it came with the handle `g` and the
configuration `c`. -/
def RecordedFor (qs : List (Request κ σ α)) (s₀ : σ) (k : GeneratorId) (d : ClassId) (v : Verdict)
    (g : Generator σ α) (c : Config) : Prop :=
  ∃ before q later, qs = before ++ q :: later ∧ q.asks? = some (g, c) ∧
    (after before s₀).registry.ledger.verdict? k d = none ∧
    (after (before ++ [q]) s₀).registry.ledger.verdict? k d = some v

variable {qs : List (Request κ σ α)} {s₀ : σ} {k : GeneratorId} {d : ClassId} {v : Verdict}

/-- Later operations do not change which one made a record. -/
theorem RecordedFor.snoc {g : Generator σ α} {c : Config} (hr : RecordedFor qs s₀ k d v g c)
    (q : Request κ σ α) : RecordedFor (qs ++ [q]) s₀ k d v g c := by
  obtain ⟨before, q', later, rfl, hr⟩ := hr
  exact ⟨before, q', later ++ [q], by rw [List.append_assoc, List.cons_append], hr⟩

/-- More operations are carried out at the desk that the others leave behind. -/
theorem serve_append (desk : Desk κ σ α) (qs qs' : List (Request κ σ α)) :
    desk.serve (qs ++ qs') = desk.serve qs >>= fun desk => desk.serve qs' :=
  List.foldlM_append

theorem serve_singleton (desk : Desk κ σ α) (q : Request κ σ α) :
    desk.serve [q] = desk.answer q := by
  rw [serve, List.foldlM_cons]
  exact bind_pure _

/-- What an operation recorded is recorded after all operations. -/
theorem RecordedFor.recorded {g : Generator σ α} {c : Config}
    (hr : RecordedFor qs s₀ k d v g c) : (after qs s₀).registry.ledger.verdict? k d = some v := by
  obtain ⟨before, q, later, rfl, -, -, hv⟩ := hr
  rw [List.append_cons, after, serve_append]
  exact (serve_onward _ _ later).keeps hv

/-- **Every record goes back to one operation**, and to the check that was made for its handle. -/
theorem exists_recordedFor (qs : List (Request κ σ α)) (s₀ : σ)
    (hv : (after qs s₀).registry.ledger.verdict? k d = some v) :
    ∃ g c s cls, g.id = k ∧ RecordedFor qs s₀ k d v g c ∧
      Account (after qs s₀).registry.hierarchy (after qs s₀).registry.ledger
        (work (history qs s₀)) g c s cls d v := by
  induction qs using List.reverseRecOn with
  | nil => cases hv
  | append_singleton qs q ih =>
    have ho := (after qs s₀).answer_onward ((empty.serve qs).final s₀) q fun _ _ hasks => hasks
    have hafter : (after (qs ++ [q]) s₀) =
        ((after qs s₀).answer q).value ((empty.serve qs).final s₀) := by
      rw [after, serve_append, Run.value_bind, serve_singleton]
      rfl
    have hhistory : work (history (qs ++ [q]) s₀) = work (history qs s₀) ++
        work (((after qs s₀).answer q).events ((empty.serve qs).final s₀)) := by
      rw [history, serve_append, Run.events_bind, serve_singleton, work_append]
      rfl
    rw [hhistory, hafter]
    have hv' := hafter ▸ hv
    cases hr : (after qs s₀).registry.ledger.verdict? k d with
    | some w =>
      -- recorded by an earlier operation: its account stays
      obtain rfl : w = v := Option.some_inj.1 ((ho.keeps hr).symm.trans hv')
      obtain ⟨g, c, s, cls, rfl, hrec, hacc⟩ := ih hr
      exact ⟨g, c, s, cls, rfl, hrec.snoc q, ho.account hacc hr⟩
    | none =>
      obtain ⟨g, c, s, cls, rfl, hasks, hacc⟩ := ho.exists_account hr hv'
      have ha := after_audited qs s₀
      refine ⟨g, c, s, cls, rfl, ⟨qs, q, [], rfl, hasks, hr, hv⟩, hacc.behind ?_ ?_⟩
      · exact ha.openings_nil _ d hr
      · exact ha.closings_nil _ d hr

/-- After one request more, the record of the requested class goes back to this request if there was
none before, and to an operation of the run otherwise. -/
theorem exists_account_of_validate (qs : List (Request κ σ α)) (s₀ s : σ) (id : ClassId)
    (g : Generator σ α) (c : Config)
    (hid : id.index < (after qs s₀).registry.hierarchy.size) :
    let r := (after qs s₀).registry
    let result := (r.validate id g c).value s
    ∃ g₁ c₁ u cls, g₁.id = g.id ∧
      ((r.ledger.verdict? g.id id = none ∧ g₁ = g ∧ c₁ = c) ∨
        RecordedFor qs s₀ g.id id result.1 g₁ c₁) ∧
      Account r.hierarchy result.2.ledger (history qs s₀ ++ (r.validate id g c).events s) g₁ c₁ u
        cls id result.1 := by
  intro r result
  obtain ⟨plan, hp⟩ := Registry.validate_settles r id g c s hid
  have ho : Onward (fun g' c' => g' = g ∧ c' = c) r result.2
      (work ((r.validate id g c).events s)) := r.validate_onward s ⟨rfl, rfl⟩ id
  rw [← hp.hierarchy_eq]
  cases hr : r.ledger.verdict? g.id id with
  | none =>
    -- the class was not opened before, so the check of this request is the only one
    obtain ⟨g₁, c₁, u, cls, hk, ⟨rfl, rfl⟩, hacc⟩ := ho.exists_account hr hp.recorded
    have ha := after_audited qs s₀
    have hacc' := hacc.of_work.behind (openings_work _ _ _ ▸ ha.openings_nil _ id hr)
      (closings_work _ _ _ ▸ ha.closings_nil _ id hr)
    exact ⟨g₁, c₁, u, cls, hk, .inl ⟨rfl, rfl, rfl⟩, hacc'⟩
  | some v =>
    -- what is recorded is what is returned, and its account stays
    obtain rfl : v = result.1 := Option.some_inj.1 ((ho.keeps hr).symm.trans hp.recorded)
    obtain ⟨g₁, c₁, u, cls, hk, hrec, hacc⟩ := exists_recordedFor qs s₀ hr
    have hacc' := ho.account hacc (hk ▸ hr)
    rw [← work_append] at hacc'
    exact ⟨g₁, c₁, u, cls, hk, .inr hrec, hacc'.of_work⟩

end Desk

/-- **A verdict is permanent, and asking again is free.**  After a run `qs`, a request on a
registered class returns a verdict.  Whatever operations `qs'` follow, in whatever state the host
is, and with whatever declarations: a request on the class with a handle of the same generator
returns this verdict, does no work, and leaves the host and the registry as they are.  The verdict
is what is recorded.  It goes back to one check of the laws of the class, made for the handle of
this request, or of the operation of the run that made the record; and it is not the line for a
class that failed already with the name of this handle. -/
theorem Desk.verdict_permanent [DecidableEq κ] (qs qs' : List (Request κ σ α)) (s₀ s s₁ s₂ : σ)
    (table : InstanceTable κ) (id : ClassId) (g g' : Generator σ α) (c c' : Config)
    (hid : id.index < (Desk.after qs s₀).registry.hierarchy.size) (hg : g'.id = g.id) :
    let r := (Desk.after qs s₀).registry
    let first := (r.validate id g c).value s
    let later := (((⟨first.2, table⟩ : Desk κ σ α).serve qs').value s₁).registry
    (later.validate id g' c').value s₂ = (first.1, later) ∧
      (later.validate id g' c').final s₂ = s₂ ∧
      work ((later.validate id g' c').events s₂) = [] ∧
      first.2.ledger.verdict? g.id id = some first.1 ∧
      ∃ g₁ c₁ u cls, g₁.id = g.id ∧
        ((r.ledger.verdict? g.id id = none ∧ g₁ = g ∧ c₁ = c) ∨
          Desk.RecordedFor qs s₀ g.id id first.1 g₁ c₁) ∧
        Account r.hierarchy first.2.ledger
          (Desk.history qs s₀ ++ (r.validate id g c).events s) g₁ c₁ u cls id first.1 ∧
        first.1 ≠ Verdict.fail (Hierarchy.againLine cls.name g₁.name) := by
  intro r first later
  obtain ⟨plan, hp⟩ := Registry.validate_settles r id g c s hid
  -- whatever follows, the record stays, and so does the class
  have honward := (⟨first.2, table⟩ : Desk κ σ α).serve_onward s₁ qs'
  have hlater : later.ledger.verdict? g'.id id = some first.1 := by
    rw [hg]
    exact honward.keeps hp.recorded
  have hid' : id.index < later.hierarchy.size := by
    refine honward.grows.lt_size ?_
    show id.index < first.2.hierarchy.size
    rwa [hp.hierarchy_eq]
  obtain ⟨cls, hc⟩ := Hierarchy.exists_class?_of_lt hid'
  have heq := Registry.validate_recorded hc hlater c' s₂
  refine ⟨?_, ?_, ?_, hp.recorded, ?_⟩
  · rw [Run.value, heq]
  · rw [Run.final, heq]
  · rw [Run.events, heq]
    rfl
  · obtain ⟨g₁, c₁, u, cls, hk, hmade, hacc⟩ := Desk.exists_account_of_validate qs s₀ s id g c hid
    exact ⟨g₁, c₁, u, cls, hk, hmade, hacc, hacc.ne_again⟩

/-- The fourth of four classes is validated, all requests are made again, and a handle that yields
nothing gets the first verdict.  It goes back to the check for the first handle. -/
theorem Diamond.silent_replays :
    let r := (Desk.after requests ()).registry
    let first := (r.validate ⟨3⟩ doubles config).value ()
    let later := (((⟨first.2, .empty⟩ : Desk Unit Unit Nat).serve requests).value ()).registry
    (later.validate ⟨3⟩ silent config).value () = (first.1, later) ∧
      work ((later.validate ⟨3⟩ silent config).events ()) = [] ∧
      ∃ u cls, Account r.hierarchy first.2.ledger
        (Desk.history requests () ++ (r.validate ⟨3⟩ doubles config).events ()) doubles config u cls
        ⟨3⟩ first.1 := by
  obtain ⟨hreplay, -, hwork, -, g₁, c₁, u, cls, -, hmade, hacc, -⟩ :=
    Desk.verdict_permanent requests requests () () () () .empty ⟨3⟩ doubles silent config config
      (by decide +kernel) rfl
  refine ⟨hreplay, hwork, u, cls, ?_⟩
  rcases hmade with ⟨-, rfl, rfl⟩ | hrec
  · exact hacc
  · -- no operation of the run had recorded the fourth class
    have hnone : (Desk.after requests ()).registry.ledger.verdict? doubles.id ⟨3⟩ = none := by
      decide +kernel
    rw [hrec.recorded] at hnone
    cases hnone

end Lawbook

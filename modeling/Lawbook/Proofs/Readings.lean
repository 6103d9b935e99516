/-
Lawbook/Proofs/Readings.lean

Readings: documents come from texts with each key once.

A text may give a key of an object several times; the last value counts.  Both readers see to that
in the same way: they assign the values one after the other, and to assign a value adds no second
entry at its key (`TidyEntries.assign`).  The reader of JSON keeps the objects that are still open
on a stack, so its invariant is one on the stack (`Progress.Tidy`), which each token keeps
(`Progress.tidy_step`).  The reader of YAML has the structure of the text first, and the proof
follows it.

Other readers are as good, if they are tidy (`Formats.Tidy`).

Main result: `Formats.tidy_standard`.
-/
import Lawbook.Config.File
import Lawbook.Json.Reader
import Lawbook.Proofs.Paths
import Lawbook.Yaml.Node

namespace Lawbook

/-- What each step keeps is kept by all of them, as long as none fails. -/
theorem foldlM_keeps {β γ : Type} {step : β → γ → Option β} {P : β → Prop} {xs : List γ}
    (hstep : ∀ b x b', x ∈ xs → P b → step b x = some b' → P b') {b b' : β} (hb : P b)
    (h : xs.foldlM step b = some b') : P b' := by
  induction xs generalizing b with
  | nil =>
    obtain rfl := Option.some.inj h
    exact hb
  | cons x xs ih =>
    rw [List.foldlM_cons] at h
    obtain ⟨b₁, h₁, hrest⟩ := Option.bind_eq_some_iff.1 h
    have hb₁ : P b₁ := hstep b x b₁ List.mem_cons_self hb h₁
    exact ih (fun b x b' hx => hstep b x b' (List.mem_cons_of_mem _ hx)) hb₁ hrest

/-! ### Entries that are assigned -/

namespace Document

variable {key : String} {value : Document} {entries : List (String × Document)}

/-- Each key stands once among the entries, and once in all objects behind them. -/
def TidyEntries (entries : List (String × Document)) : Prop :=
  (entries.map Prod.fst).Nodup ∧ ∀ entry ∈ entries, entry.2.Tidy

theorem tidyEntries_nil : TidyEntries [] :=
  ⟨List.nodup_nil, nofun⟩

theorem TidyEntries.object (h : TidyEntries entries) : (Document.object entries).Tidy :=
  .object h.1 h.2

/-- What is there after an assignment was there before, or was assigned. -/
theorem eq_or_mem_of_mem_assign {entry : String × Document}
    (h : entry ∈ assign key value entries) : entry = (key, value) ∨ entry ∈ entries := by
  induction entries with
  | nil => exact .inl (List.mem_singleton.1 h)
  | cons first rest ih =>
    obtain ⟨other, old⟩ := first
    rw [assign] at h
    split at h
    · next heq =>
      rcases List.mem_cons.1 h with hfirst | hrest
      · exact .inl (by rw [hfirst, heq])
      · exact .inr (List.mem_cons_of_mem _ hrest)
    · rcases List.mem_cons.1 h with hfirst | hrest
      · exact .inr (hfirst ▸ List.mem_cons_self)
      · exact (ih hrest).imp_right (List.mem_cons_of_mem _)

/-- To assign a key that is there replaces its entry, so no key comes twice. -/
theorem nodup_assign (value : Document) (h : (entries.map Prod.fst).Nodup) :
    ((assign key value entries).map Prod.fst).Nodup := by
  induction entries with
  | nil => simp [assign]
  | cons first rest ih =>
    obtain ⟨other, old⟩ := first
    obtain ⟨hother, hrest⟩ := List.nodup_cons.1 h
    rw [assign]
    split
    · exact List.nodup_cons.2 ⟨hother, hrest⟩
    · next hne =>
      refine List.nodup_cons.2 ⟨fun hmem => ?_, ih hrest⟩
      obtain ⟨entry, hentry, heq⟩ := List.mem_map.1 hmem
      rcases eq_or_mem_of_mem_assign hentry with rfl | hold
      · exact hne heq.symm
      · exact hother (List.mem_map.2 ⟨entry, hold, heq⟩)

/-- To assign a value keeps each key once. -/
theorem TidyEntries.assign (h : TidyEntries entries) (hvalue : value.Tidy) (key : String) :
    TidyEntries (assign key value entries) := by
  refine ⟨nodup_assign value h.1, fun entry hentry => ?_⟩
  rcases eq_or_mem_of_mem_assign hentry with rfl | hold
  · exact hvalue
  · exact h.2 entry hold

end Document

open Document

/-! ### JSON -/

namespace Json

/-- A word stands for a document with each key once. -/
def Token.Tidy : Token → Prop
  | .atom value => value.Tidy
  | _ => True

/-- The words of the language and numbers are no objects. -/
theorem isObject_atom? {cs : List Char} {d : Document} (h : atom? cs = some d) :
    d.isObject = false := by
  unfold atom? at h
  split at h
  · exact Option.some.inj h ▸ rfl
  split at h
  · exact Option.some.inj h ▸ rfl
  split at h
  · exact Option.some.inj h ▸ rfl
  obtain ⟨n, -, rfl⟩ := Option.map_eq_some_iff.1 h
  rfl

namespace Splitting

/-- All words so far stand for tidy documents. -/
def Tidy (s : Splitting) : Prop :=
  ∀ token ∈ s.tokens, token.Tidy

variable {s s' : Splitting} {tokens : List Token} {c : Char}

theorem tidy_mark? {token : Token} (h : mark? c = some token) : token.Tidy := by
  unfold mark? at h
  split at h <;> cases h <;> trivial

/-- The character with which a token starts completes at most a mark, which stands for nothing. -/
theorem tidy_start (ht : ∀ token ∈ tokens, token.Tidy) (h : start tokens c = some s) : s.Tidy := by
  unfold start at h
  split at h
  · exact Option.some.inj h ▸ ht
  split at h
  · exact Option.some.inj h ▸ ht
  split at h
  · exact Option.some.inj h ▸ ht
  obtain ⟨token, htoken, rfl⟩ := Option.map_eq_some_iff.1 h
  exact List.forall_mem_cons.2 ⟨tidy_mark? htoken, ht⟩

/-- Each character keeps the tokens tidy, whether it goes on with a token or ends it. -/
theorem tidy_step (hs : s.Tidy) (h : step s c = some s') : s'.Tidy := by
  obtain ⟨tokens, mode⟩ := s
  cases mode with
  | between => exact tidy_start hs h
  | word read =>
    simp only [step] at h
    split at h
    · exact Option.some.inj h ▸ hs
    · obtain ⟨value, hvalue, h⟩ := Option.bind_eq_some_iff.1 h
      have htokens : ∀ token ∈ Token.atom value :: tokens, token.Tidy :=
        List.forall_mem_cons.2 ⟨Document.Tidy.whole (isObject_atom? hvalue), hs⟩
      exact tidy_start htokens h
  | text read =>
    simp only [step] at h
    split at h
    · obtain ⟨cs, -, h⟩ := Option.bind_eq_some_iff.1 h
      exact Option.some.inj h ▸ List.forall_mem_cons.2 ⟨trivial, hs⟩
    split at h
    · exact Option.some.inj h ▸ hs
    · exact Option.some.inj h ▸ hs
  | escape read => exact Option.some.inj h ▸ hs

/-- The end of the text adds at most the token that was open. -/
theorem tidy_finish (hs : s.Tidy) (h : finish s = some tokens) : ∀ token ∈ tokens, token.Tidy := by
  obtain ⟨sofar, mode⟩ := s
  cases mode with
  | between =>
    obtain rfl := Option.some.inj h
    exact fun token ht => hs token (List.mem_reverse.1 ht)
  | word read =>
    obtain ⟨value, hvalue, h⟩ := Option.bind_eq_some_iff.1 h
    obtain rfl := Option.some.inj h
    intro token ht
    rcases List.mem_cons.1 (List.mem_reverse.1 ht) with rfl | hold
    · exact Document.Tidy.whole (isObject_atom? hvalue)
    · exact hs token hold
  | text read => cases h
  | escape read => cases h

end Splitting

/-- All tokens of a text are tidy: the invariant of the scan, carried through its characters. -/
theorem tidy_tokens? {cs : List Char} {tokens : List Token} (h : tokens? cs = some tokens) :
    ∀ token ∈ tokens, token.Tidy := by
  obtain ⟨s, hs, h⟩ := Option.bind_eq_some_iff.1 h
  have hstart : (⟨[], .between⟩ : Splitting).Tidy := nofun
  exact Splitting.tidy_finish (foldlM_keeps (fun _ _ _ _ => Splitting.tidy_step) hstart hs) h

/-- An open object has each key once. -/
def Frame.Tidy : Frame → Prop
  | .list _ => True
  | .entry entries _ => TidyEntries entries

namespace Progress

/-- All that was read so far has each key once. -/
def Tidy : Progress → Prop
  | .expectValue frames => ∀ frame ∈ frames, frame.Tidy
  | .inList frames => ∀ frame ∈ frames, frame.Tidy
  | .inObject frames => ∀ frame ∈ frames, frame.Tidy
  | .expectKey entries frames => TidyEntries entries ∧ ∀ frame ∈ frames, frame.Tidy
  | .expectColon entries _ frames => TidyEntries entries ∧ ∀ frame ∈ frames, frame.Tidy
  | .complete value frames => value.Tidy ∧ ∀ frame ∈ frames, frame.Tidy

variable {frames : List Frame} {token : Token} {value : Document} {progress progress' : Progress}

/-- A value that begins is whole, or it opens a frame with no entries. -/
theorem tidy_beginValue (hf : ∀ frame ∈ frames, frame.Tidy) (ht : token.Tidy)
    (h : beginValue frames token = some progress) : progress.Tidy := by
  unfold beginValue at h
  split at h
  · exact Option.some.inj h ▸ ⟨ht, hf⟩
  · exact Option.some.inj h ▸ ⟨.whole rfl, hf⟩
  · split at h
    · exact Option.some.inj h ▸ hf
    · cases h
  · split at h
    · exact Option.some.inj h ▸ hf
    · cases h
  · cases h

/-- A value that is complete joins the frame around it, where an assignment keeps the entries tidy.
-/
theorem tidy_continueFrame (hv : value.Tidy) (hf : ∀ frame ∈ frames, frame.Tidy)
    (h : continueFrame value frames token = some progress) : progress.Tidy := by
  unfold continueFrame at h
  split at h
  · obtain ⟨-, houter⟩ := List.forall_mem_cons.1 hf
    exact Option.some.inj h ▸ List.forall_mem_cons.2 ⟨trivial, houter⟩
  · obtain ⟨-, houter⟩ := List.forall_mem_cons.1 hf
    exact Option.some.inj h ▸ ⟨.whole rfl, houter⟩
  · obtain ⟨hentries, houter⟩ := List.forall_mem_cons.1 hf
    exact Option.some.inj h ▸ ⟨hentries.assign hv _, houter⟩
  · obtain ⟨hentries, houter⟩ := List.forall_mem_cons.1 hf
    exact Option.some.inj h ▸ ⟨(hentries.assign hv _).object, houter⟩
  · cases h

/-- Each token keeps what is read tidy: it begins a value, or it goes on with the innermost frame.
-/
theorem tidy_step (hp : progress.Tidy) (ht : token.Tidy)
    (h : step progress token = some progress') : progress'.Tidy := by
  unfold step at h
  split at h
  · exact tidy_beginValue hp ht h
  · exact Option.some.inj h ▸ ⟨.whole rfl, hp⟩
  · refine tidy_beginValue ?_ ht h
    exact List.forall_mem_cons.2 ⟨trivial, hp⟩
  · exact Option.some.inj h ▸ ⟨tidyEntries_nil.object, hp⟩
  · exact Option.some.inj h ▸ ⟨tidyEntries_nil, hp⟩
  · exact Option.some.inj h ▸ hp
  · exact Option.some.inj h ▸ List.forall_mem_cons.2 hp
  · exact tidy_continueFrame hp.1 hp.2 h
  · cases h

end Progress

/-- **A document that is read from JSON has no key twice**, at any depth. -/
theorem tidy_read? {s : String} {d : Document} (h : read? s = some d) : d.Tidy := by
  obtain ⟨tokens, htokens, h⟩ := Option.bind_eq_some_iff.1 h
  obtain ⟨progress, hprogress, h⟩ := Option.bind_eq_some_iff.1 h
  have hstart : (Progress.expectValue []).Tidy := nofun
  have htidy : progress.Tidy :=
    foldlM_keeps (fun _ token _ hmem hp => Progress.tidy_step hp (tidy_tokens? htokens token hmem))
      hstart hprogress
  unfold Progress.finish at h
  split at h
  · exact Option.some.inj h ▸ htidy.1
  · cases h

end Json

/-! ### YAML -/

namespace Yaml

/-- A plain scalar is no object. -/
theorem isObject_plainValue? {s : String} {d : Document} (h : plainValue? s = some d) :
    d.isObject = false := by
  have hreal : ∀ x : Option Float,
      ((x.map fun x => Document.number (.real x)).getD (.text s)).isObject = false := by
    intro x
    cases x <;> rfl
  unfold plainValue? at h
  split at h
  · exact Option.some.inj h ▸ rfl
  split at h
  · exact Option.some.inj h ▸ rfl
  split at h
  · exact Option.some.inj h ▸ rfl
  split at h
  · split at h
    · exact Option.some.inj h ▸ rfl
    split at h
    · cases h
    · exact Option.some.inj h ▸ hreal _
  · exact Option.some.inj h ▸ hreal _

namespace Node

mutual

/-- A node becomes a tidy document: by recursion over the nodes, since a mapping becomes an object
by assignments. -/
theorem tidy_toDocument? : ∀ {node : Node} {d : Document}, node.toDocument? = some d → d.Tidy
  | scalar _ true, _, h => .whole (isObject_plainValue? h)
  | scalar _ false, _, h => by
    rw [toDocument?] at h
    exact Option.some.inj h ▸ .whole rfl
  | list _, _, h => by
    rw [toDocument?] at h
    obtain ⟨_, -, h⟩ := Option.bind_eq_some_iff.1 h
    exact Option.some.inj h ▸ .whole rfl
  | map _, _, h => by
    rw [toDocument?] at h
    obtain ⟨_, hentries, h⟩ := Option.bind_eq_some_iff.1 h
    exact Option.some.inj h ▸ (tidy_entriesToDocuments? tidyEntries_nil hentries).object

theorem tidy_entriesToDocuments? : ∀ {entries : List (Node × Node)}
    {before after : List (String × Document)}, TidyEntries before →
      entriesToDocuments? before entries = some after → TidyEntries after
  | [], _, _, hbefore, h => by
    rw [entriesToDocuments?] at h
    exact Option.some.inj h ▸ hbefore
  | (scalar key _, value) :: _, _, _, hbefore, h => by
    rw [entriesToDocuments?] at h
    obtain ⟨_, hvalue, h⟩ := Option.bind_eq_some_iff.1 h
    exact tidy_entriesToDocuments? (hbefore.assign (tidy_toDocument? hvalue) key) h
  | (list _, _) :: _, _, _, _, h => by
    rw [entriesToDocuments?] at h
    · cases h
    · nofun
  | (map _, _) :: _, _, _, _, h => by
    rw [entriesToDocuments?] at h
    · cases h
    · nofun

end

end Node

/-- **A document that is read from YAML has no key twice**, at any depth. -/
theorem tidy_read? {s : String} {d : Document} (h : read? s = some d) : d.Tidy := by
  obtain ⟨tokens, -, h⟩ := Option.bind_eq_some_iff.1 h
  obtain ⟨node, -, h⟩ := Option.bind_eq_some_iff.1 h
  split at h
  · exact Node.tidy_toDocument? h
  · cases h

end Yaml

/-! ### Files -/

/-- The documents that are read have each key once. -/
structure Formats.Tidy (formats : Formats) : Prop where
  json : ∀ {s d}, formats.json? s = some d → d.Tidy
  yaml : ∀ {s d}, formats.yaml? s = some d → d.Tidy

/-- The usual readers. -/
def Formats.standard : Formats := ⟨Json.read?, Yaml.read?⟩

/-- **The usual readers give each key once**, however often a text gives it. -/
theorem Formats.tidy_standard : Formats.standard.Tidy := ⟨Json.tidy_read?, Yaml.tidy_read?⟩

/-- In a document from a file, each key stands once. -/
theorem Formats.Tidy.loadDocument {formats : Formats} (hformats : formats.Tidy)
    {files : FileSystem} {path : String} {d : Document}
    (h : Lawbook.loadDocument formats files path = .ok d) : d.Tidy := by
  unfold Lawbook.loadDocument at h
  split at h
  · cases h
  split at h
  · cases h
  next read hread =>
    split at h
    · cases h
    next d' hd =>
      obtain rfl := Except.ok.inj h
      unfold Formats.reader? at hread
      split at hread
      · exact hformats.json (Option.some.inj hread ▸ hd)
      · exact hformats.yaml (Option.some.inj hread ▸ hd)
      · exact hformats.yaml (Option.some.inj hread ▸ hd)
      · cases hread

end Lawbook

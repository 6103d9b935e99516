/-
Lawbook/Proofs/Blame.lean

Blame: the file that an error is about, and the file that is at fault.

Where a base is loaded with customizations, an error about a file can come from four places: either
file cannot be read, or is no document of its format, or the two together are no settings
(`Faulted`).  In the first cases the file that the error names fails in the same way by itself.  In
the last one the error always names the base, since the two documents are one by then.  It is right
to do so if the base by itself is no settings either.  But it also does so if the base is fine and
the customizations are not (`FaultAbove`), and that is the only way for an error to name the wrong
file.

The two together cannot be read if the upper document cannot, whatever lies below
(`ofDocument?_overlay_eq_none`), and only if one of the two cannot.

Main result: `Config.fair_iff_not_faultAbove`.
-/
import Lawbook.Proofs.Customized

namespace Lawbook

open Document

/-! ### Errors about files -/

/-- The file that an error is about, if it is about one. -/
def ConfigError.path? : ConfigError → Option String
  | unsupportedFormat path => some path
  | unreadable path _ => some path
  | malformed path => some path
  | _ => none

section

variable {formats : Formats} {files : FileSystem} {path : String} {e : ConfigError}

theorem path?_of_loadDocument (h : loadDocument formats files path = .error e) :
    e.path? = some path := by
  unfold loadDocument at h
  split at h
  · cases h
    rfl
  split at h
  · cases h
    rfl
  split at h
  · cases h
    rfl
  · cases h

/-- A number that is refused is not the fault of a file. -/
theorem path?_of_roundsOf {size : Float} (h : roundsOf size = .error e) : e.path? = none := by
  unfold roundsOf at h
  split at h
  · cases h
    rfl
  split at h
  · cases h
    rfl
  dsimp only at h
  split at h
  · cases h
    rfl
  · cases h

end

/-! ### Settings in two documents -/

namespace Settings

variable {lower upper : Document}

/-- **Customizations that cannot be read spoil what they are laid over.** -/
theorem ofDocument?_overlay_eq_none (hupper : upper.Tidy) (h : ofDocument? upper = none)
    (lower : Document) : ofDocument? (lower.overlay upper) = none := by
  rcases overlay_eq_or_exists lower upper with heq | ⟨under, entries, rfl, rfl⟩
  · rw [heq, h]
  · obtain ⟨name, d, hd, hmisfit⟩ := ofDocument?_eq_none_iff.1 h
    rw [ofDocument?_overlay hupper]
    apply ofDocument?_eq_none_iff.2
    apply (exists_lookup_chosen Misfit.mem_fieldNames).2
    refine ⟨name, d, ?_, hmisfit⟩
    rw [fieldOver, hd, Option.some_or]

/-- What cannot be read of both cannot be read of one of the two. -/
theorem ofDocument?_eq_none_of_overlay (hupper : upper.Tidy)
    (h : ofDocument? (lower.overlay upper) = none) :
    ofDocument? lower = none ∨ ofDocument? upper = none := by
  rcases overlay_eq_or_exists lower upper with heq | ⟨under, entries, rfl, rfl⟩
  · rw [heq] at h
    exact .inr h
  · rw [ofDocument?_overlay hupper] at h
    obtain ⟨name, d, hd, hmisfit⟩ :=
      (exists_lookup_chosen Misfit.mem_fieldNames).1 (ofDocument?_eq_none_iff.1 h)
    rcases Option.or_eq_some_iff.1 hd with hd | ⟨-, hd⟩
    · exact .inr (ofDocument?_eq_none_iff.2 ⟨name, d, hd, hmisfit⟩)
    · exact .inl (ofDocument?_eq_none_iff.2 ⟨name, d, hd, hmisfit⟩)

end Settings

/-! ### Loading both files -/

namespace Config

open Settings

variable {formats : Formats} {files : FileSystem} {base custom path p : String} {fresh : Cell}
  {c : Config} {s : Settings} {d : Document} {e : ConfigError}

/-- Settings that can be read are not refused on account of a file. -/
theorem path?_of_apply (h : c.apply fresh s = .error e) : e.path? = none := by
  obtain ⟨size, -, hrefused⟩ := apply_eq_error_iff.1 h
  exact path?_of_roundsOf hrefused

/-- An error about a file means that the document of that file is no settings. -/
theorem malformed_of_ofDocument_error (h : ofDocument fresh path d = .error e)
    (hp : e.path? = some p) : ofDocument? d = none ∧ e = .malformed path := by
  cases hs : ofDocument? d with
  | none =>
    rw [ofDocument_of_none fresh path hs] at h
    exact ⟨rfl, (Except.error.inj h).symm⟩
  | some s =>
    rw [ofDocument_of_some fresh path hs] at h
    rw [path?_of_apply h] at hp
    cases hp

theorem load_of_loadDocument_error (fresh : Cell) (h : loadDocument formats files path = .error e) :
    load formats files fresh path = .error e := by
  rw [load_eq, h]
  rfl

theorem load_of_loadDocument_ok (fresh : Cell) (h : loadDocument formats files path = .ok d) :
    load formats files fresh path = ofDocument fresh path d := by
  rw [load_eq, h]
  rfl

/-- How an error about a file comes about, where customizations are laid over a base. -/
inductive Faulted (formats : Formats) (files : FileSystem) (base custom : String) :
    ConfigError → Prop
  | base {e : ConfigError} : loadDocument formats files base = .error e →
      Faulted formats files base custom e
  | custom {e : ConfigError} : loadDocument formats files custom = .error e →
      Faulted formats files base custom e
  | both {lower upper : Document} : loadDocument formats files base = .ok lower →
      loadDocument formats files custom = .ok upper →
        ofDocument? (lower.overlay upper) = none →
          Faulted formats files base custom (.malformed base)

theorem faulted_of_loadOverlaid (h : loadOverlaid formats files fresh base custom = .error e)
    (hp : e.path? = some p) : Faulted formats files base custom e := by
  rw [loadOverlaid_eq] at h
  cases hlower : loadDocument formats files base with
  | error e' =>
    rw [hlower] at h
    obtain rfl : e' = e := Except.error.inj h
    exact .base hlower
  | ok lower =>
    cases hupper : loadDocument formats files custom with
    | error e' =>
      rw [hlower, hupper] at h
      obtain rfl : e' = e := Except.error.inj h
      exact .custom hupper
    | ok upper =>
      rw [hlower, hupper] at h
      obtain ⟨hnone, rfl⟩ := malformed_of_ofDocument_error h hp
      exact .both hlower hupper hnone

/-- Both files hold documents, and that of the base is one of settings, but that of the
customizations is not. -/
structure FaultAbove (formats : Formats) (files : FileSystem) (base custom : String)
    (lower upper : Document) : Prop where
  isThere : files.isThere custom = true
  base_eq : loadDocument formats files base = .ok lower
  custom_eq : loadDocument formats files custom = .ok upper
  base_reads : ofDocument? lower ≠ none
  custom_fails : ofDocument? upper = none

/-- Each error about a file is one that the file gives by itself. -/
def Fair (formats : Formats) (files : FileSystem) (fresh : Cell) (base custom : String) : Prop :=
  ∀ e p, (loadCustomized formats files fresh base custom).1 = .error e → e.path? = some p →
    (p = base ∨ p = custom) ∧ load formats files fresh p = .error e

/-- An error about a file, without customizations, is about the base. -/
theorem path_eq_of_load (h : load formats files fresh path = .error e) (hp : e.path? = some p) :
    p = path := by
  cases hd : loadDocument formats files path with
  | error e' =>
    rw [load_of_loadDocument_error fresh hd] at h
    obtain rfl : e' = e := Except.error.inj h
    exact Option.some.inj (hp.symm.trans (path?_of_loadDocument hd))
  | ok d =>
    rw [load_of_loadDocument_ok fresh hd] at h
    obtain ⟨-, rfl⟩ := malformed_of_ofDocument_error h hp
    exact (Option.some.inj hp).symm

variable (hformats : formats.Tidy)
include hformats

/-- Where only the customizations are at fault, the base is blamed. -/
theorem FaultAbove.misplaced {lower upper : Document}
    (h : FaultAbove formats files base custom lower upper) (fresh : Cell) :
    loadCustomized formats files fresh base custom = (.error (.malformed base), []) ∧
      load formats files fresh custom = .error (.malformed custom) ∧
        load formats files fresh base ≠ .error (.malformed base) := by
  have hnone := ofDocument?_overlay_eq_none (hformats.loadDocument h.custom_eq) h.custom_fails lower
  refine ⟨?_, ?_, fun hbase => ?_⟩
  · rw [loadCustomized, if_pos h.isThere, loadOverlaid_eq, h.base_eq, h.custom_eq]
    exact congrArg (·, []) (ofDocument_of_none fresh base hnone)
  · rw [load_of_loadDocument_ok fresh h.custom_eq, ofDocument_of_none fresh custom h.custom_fails]
  · rw [load_of_loadDocument_ok fresh h.base_eq] at hbase
    exact h.base_reads (malformed_of_ofDocument_error hbase rfl).1

theorem fair_of_not_faultAbove
    (h : ∀ lower upper, ¬ FaultAbove formats files base custom lower upper) (fresh : Cell) :
    Fair formats files fresh base custom := by
  intro e p he hp
  unfold loadCustomized at he
  split at he
  · next hthere =>
    cases faulted_of_loadOverlaid he hp with
    | base hbase =>
      obtain rfl := Option.some.inj (hp.symm.trans (path?_of_loadDocument hbase))
      exact ⟨.inl rfl, load_of_loadDocument_error fresh hbase⟩
    | custom hcustom =>
      obtain rfl := Option.some.inj (hp.symm.trans (path?_of_loadDocument hcustom))
      exact ⟨.inr rfl, load_of_loadDocument_error fresh hcustom⟩
    | @both lower upper hlower hupper hnone =>
      obtain rfl := Option.some.inj hp
      -- the upper document may be no settings either, but then so is the lower one
      have hbase : ofDocument? lower = none := by
        by_contra hreads
        have htidy := hformats.loadDocument hupper
        rcases ofDocument?_eq_none_of_overlay htidy hnone with hfails | hfails
        · exact hreads hfails
        · exact h lower upper ⟨hthere, hlower, hupper, hreads, hfails⟩
      refine ⟨.inl rfl, ?_⟩
      rw [load_of_loadDocument_ok fresh hlower, ofDocument_of_none fresh _ hbase]
  · obtain rfl := path_eq_of_load he hp
    exact ⟨.inl rfl, he⟩

/-- **Errors blame the right file, unless only the customizations are no settings.**  In that case
the base is blamed, which is accepted by itself or refused for another reason. -/
theorem fair_iff_not_faultAbove (files : FileSystem) (fresh : Cell) (base custom : String) :
    (Fair formats files fresh base custom ↔
      ∀ lower upper, ¬ FaultAbove formats files base custom lower upper) ∧
        ∀ lower upper, FaultAbove formats files base custom lower upper →
          loadCustomized formats files fresh base custom = (.error (.malformed base), []) ∧
            load formats files fresh custom = .error (.malformed custom) ∧
              load formats files fresh base ≠ .error (.malformed base) := by
  have hmisplaced : ∀ lower upper, FaultAbove formats files base custom lower upper → _ :=
    fun lower upper h => h.misplaced hformats fresh
  refine ⟨⟨fun hfair lower upper h => ?_, fun h => ?_⟩, hmisplaced⟩
  · obtain ⟨houtcome, -, hbase⟩ := hmisplaced lower upper h
    exact hbase (hfair _ base (congrArg Prod.fst houtcome) rfl).2
  · exact fair_of_not_faultAbove hformats h fresh

end Config

/-! ### A base, its customizations and a note -/

namespace Workshop

open Config

/-- A base that is accepted by itself, customizations with a text for a number, and a file of no
known format. -/
def files : FileSystem where
  read path :=
    if path = "base.json" then .ok "\x7b\"sample_size\": 30\x7d"
    else if path = "custom.json" then .ok "\x7b\"sample_size\": \"many\"\x7d"
    else if path = "custom.txt" then .ok "many"
    else .error "No such file or directory (os error 2)"
  isThere path := path ∈ ["base.json", "custom.json", "custom.txt"]

theorem faultAbove : FaultAbove Formats.standard files "base.json" "custom.json"
    (.object [("sample_size", .number (.whole 30))]) (.object [("sample_size", .text "many")]) :=
  ⟨rfl, rfl, rfl, Option.some_ne_none _, rfl⟩

/-- The file without a format is blamed for what it lacks. -/
theorem note_blamed_fairly : Formats.standard.Tidy ∧
    Fair Formats.standard files ⟨0⟩ "base.json" "custom.txt" ∧
      load Formats.standard files ⟨0⟩ "custom.txt" = .error (.unsupportedFormat "custom.txt") := by
  have hload : loadDocument Formats.standard files "custom.txt" =
      .error (.unsupportedFormat "custom.txt") := rfl
  refine ⟨Formats.tidy_standard, ?_, load_of_loadDocument_error ⟨0⟩ hload⟩
  apply (fair_iff_not_faultAbove Formats.tidy_standard files ⟨0⟩ "base.json" "custom.txt").1.2
  intro lower upper h
  rw [h.custom_eq] at hload
  cases hload

/-- The text for a number is blamed on the base, which is accepted by itself. -/
theorem base_blamed_unfairly :
    load Formats.standard files ⟨0⟩ "base.json" = .ok ⟨30, false, .ambient⟩ ∧
      ¬ Fair Formats.standard files ⟨0⟩ "base.json" "custom.json" := by
  obtain ⟨houtcome, -, hbase⟩ := faultAbove.misplaced Formats.tidy_standard ⟨0⟩
  refine ⟨?_, fun hfair => ?_⟩
  · rw [load_of_loadDocument_ok ⟨0⟩ faultAbove.base_eq]
    rfl
  · exact hbase (hfair _ "base.json" (congrArg Prod.fst houtcome) rfl).2

end Workshop

end Lawbook

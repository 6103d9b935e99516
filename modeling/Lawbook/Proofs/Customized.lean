/-
Lawbook/Proofs/Customized.lean

Customizations: a file of settings laid over another one, field by field.

The two documents are laid over each other at every depth, and read as settings only then.  For
what is read, the depth does not count: a field is a number, a truth value or null, and a list or an
object is refused whatever is in it, so a reader sees no more of a value than its `hull`.  So the
settings are those of `Settings.chosen`, in which each field has the value of the customizations if
they give one, null included, and else that of the base (`Settings.ofDocument?_overlay`).

The other way to lay settings over each other is to apply them one after the other.  If both files
are accepted by themselves, and the customizations do not give null for a field, both ways come to
the same configuration, up to the cell of a new source (`Config.ReadsObjects.layered`).

Main result: `Config.loadCustomized_fieldwise`.
-/
import Lawbook.Proofs.Layers
import Lawbook.Proofs.Readings

namespace Lawbook

open Document

/-! ### What a reader sees -/

namespace Document

variable {β : Type} {read : Document → Option β} {x y : Option Document}

/-- A document without what is in it, if it is a list or an object. -/
def hull : Document → Document
  | list _ => list []
  | object _ => object []
  | d => d

/-- An overlay has the outermost form of its upper document: only two objects are merged. -/
theorem hull_overlay (a b : Document) : (a.overlay b).hull = b.hull := by
  cases b with
  | object entries => cases a <;> rfl
  | _ => rfl

theorem float?_hull (d : Document) : d.hull.float? = d.float? := by cases d <;> rfl

theorem bool?_hull (d : Document) : d.hull.bool? = d.bool? := by cases d <;> rfl

/-- A reader that goes by the outermost form of a document goes by it also where the field may be
missing. -/
theorem optional?_hull (hread : ∀ d, read d.hull = read d) (d : Document) :
    d.hull.optional? read = d.optional? read := by
  cases d with
  | list items => exact congrArg (Option.map some) (hread (.list items))
  | object entries => exact congrArg (Option.map some) (hread (.object entries))
  | _ => rfl

/-- Values that may be absent are read alike if they have the same hull. -/
theorem optional?_getD_congr (hread : ∀ d, read d.hull = read d)
    (h : x.map hull = y.map hull) :
    (x.getD null).optional? read = (y.getD null).optional? read := by
  have hgetD : ∀ z : Option Document, (z.map hull).getD null = (z.getD null).hull := by
    intro z
    cases z <;> rfl
  rw [← optional?_hull hread, ← optional?_hull hread (y.getD null), ← hgetD, ← hgetD, h]

/-- A field cannot be read exactly if it is there and its document cannot: a missing one is no
error. -/
theorem optional?_getD_eq_none_iff :
    (x.getD null).optional? read = none ↔ ∃ d, x = some d ∧ d.optional? read = none := by
  cases x with
  | none => exact iff_of_false nofun nofun
  | some d => simp

theorem float?_of_optional? {d : Document} {size : Float}
    (h : d.optional? float? = some (some size)) : d.float? = some size := by
  cases d with
  | number n =>
    have hsize : some n.toFloat = some size := Option.some.inj h
    exact hsize
  | _ => cases h

/-- Two layers of a field are read one after the other, unless the upper one is null. -/
theorem optional?_getD_or {b b' : Option β} (hx : x ≠ some null)
    (hupper : (x.getD null).optional? read = some b)
    (hlower : (y.getD null).optional? read = some b') :
    ((x.or y).getD null).optional? read = some (b.or b') := by
  cases x with
  | none =>
    obtain rfl := Option.some.inj hupper
    exact hlower
  | some d =>
    have hsome : ∃ c, b = some c := by
      cases d with
      | null => exact absurd rfl hx
      | _ =>
        obtain ⟨c, -, hc⟩ := Option.map_eq_some_iff.1 hupper
        exact ⟨c, hc.symm⟩
    obtain ⟨c, rfl⟩ := hsome
    exact hupper

/-- The value of a name in entries that are made of some names. -/
theorem lookup_filterMap (names : List String) (value : String → Option Document)
    (name : String) :
    lookup name (names.filterMap fun n => (value n).map (n, ·)) =
      if name ∈ names then value name else none := by
  induction names with
  | nil => rfl
  | cons n names ih =>
    cases hn : value n with
    | none =>
      rw [List.filterMap_cons_none (by rw [hn]; rfl), ih]
      by_cases h : name = n
      · subst h
        simp [hn]
      · simp [h]
    | some d =>
      rw [List.filterMap_cons_some (b := (n, d)) (by rw [hn]; rfl), lookup, ih]
      by_cases h : n = name
      · subst h
        simp [hn]
      · simp [h, Ne.symm h]

end Document

/-! ### Settings field by field -/

namespace Settings

variable {under entries under' entries' : List (String × Document)} {name : String} {d : Document}

theorem seed?_hull (d : Document) : seed? d.hull = seed? d := by cases d <;> rfl

/-- The value of a field: that of the customizations, if they give one, and else that below. -/
def fieldOver (under entries : List (String × Document)) (name : String) : Option Document :=
  (lookup name entries).or (lookup name under)

/-- The fields that customizations and what is below them come to, and nothing else. -/
def chosen (under entries : List (String × Document)) : List (String × Document) :=
  fieldNames.filterMap fun name => (fieldOver under entries name).map (name, ·)

/-- A value that cannot be read at a field. -/
inductive Misfit : String → Document → Prop
  | sampleSize {d : Document} : d.optional? Document.float? = none → Misfit "sample_size" d
  | skip {d : Document} : d.optional? Document.bool? = none → Misfit "skip_validations" d
  | seed {d : Document} : d.optional? seed? = none → Misfit "seed" d

/-- A value that is not accepted at a field: it cannot be read, or it is refused as a size. -/
inductive Rejected : String → Document → Prop
  | misfit {name : String} {d : Document} : Misfit name d → Rejected name d
  | size {d : Document} {size : Float} {e : ConfigError} : d.float? = some size →
      roundsOf size = .error e → Rejected "sample_size" d

/-- Only the three fields of the settings can misfit. -/
theorem Misfit.mem_fieldNames (h : Misfit name d) : name ∈ fieldNames := by
  cases h <;> decide

/-- Settings are read exactly if all three fields are, each by its own reader. -/
theorem ofFields?_eq_some_iff {size skip seed : Document} {s : Settings} :
    ofFields? size skip seed = some s ↔ size.optional? Document.float? = some s.sampleSize ∧
      skip.optional? Document.bool? = some s.skip ∧ seed.optional? seed? = some s.seed := by
  obtain ⟨size', skip', seed'⟩ := s
  unfold ofFields?
  cases size.optional? Document.float? <;> cases skip.optional? Document.bool? <;>
    cases seed.optional? seed? <;> simp [bind, Option.bind, pure]

/-- No settings are read exactly if one of the fields cannot be. -/
theorem ofFields?_eq_none_iff {size skip seed : Document} :
    ofFields? size skip seed = none ↔ size.optional? Document.float? = none ∨
      skip.optional? Document.bool? = none ∨ seed.optional? seed? = none := by
  unfold ofFields?
  cases size.optional? Document.float? <;> cases skip.optional? Document.bool? <;>
    cases seed.optional? seed? <;> simp [bind, Option.bind, pure]

/-! ### Reading both files -/

/-- Nothing that can be read distinguishes two objects with the same fields, up to what is in lists
and objects. -/
theorem ofDocument?_congr
    (h : ∀ name ∈ fieldNames, (lookup name entries).map hull = (lookup name entries').map hull) :
    ofDocument? (.object entries) = ofDocument? (.object entries') := by
  have hsize := optional?_getD_congr float?_hull (h "sample_size" (by decide))
  have hskip := optional?_getD_congr bool?_hull (h "skip_validations" (by decide))
  have hseed := optional?_getD_congr seed?_hull (h "seed" (by decide))
  show ofFields? _ _ _ = ofFields? _ _ _
  unfold ofFields?
  rw [hsize, hskip, hseed]

/-- Settings are read from an object field by field; other entries of the object do not count. -/
theorem ofDocument?_eq_some_iff {s : Settings} : ofDocument? (.object entries) = some s ↔
    ((lookup "sample_size" entries).getD null).optional? Document.float? = some s.sampleSize ∧
      ((lookup "skip_validations" entries).getD null).optional? Document.bool? = some s.skip ∧
        ((lookup "seed" entries).getD null).optional? seed? = some s.seed :=
  ofFields?_eq_some_iff

/-- Settings cannot be read exactly if one of their fields cannot. -/
theorem ofDocument?_eq_none_iff :
    ofDocument? (.object entries) = none ↔
      ∃ name d, lookup name entries = some d ∧ Misfit name d := by
  show ofFields? _ _ _ = none ↔ _
  rw [ofFields?_eq_none_iff, optional?_getD_eq_none_iff, optional?_getD_eq_none_iff,
    optional?_getD_eq_none_iff]
  constructor
  · rintro (⟨d, hd, hread⟩ | ⟨d, hd, hread⟩ | ⟨d, hd, hread⟩)
    · exact ⟨_, d, hd, .sampleSize hread⟩
    · exact ⟨_, d, hd, .skip hread⟩
    · exact ⟨_, d, hd, .seed hread⟩
  · rintro ⟨name, d, hd, hmisfit⟩
    cases hmisfit with
    | sampleSize hread => exact .inl ⟨d, hd, hread⟩
    | skip hread => exact .inr (.inl ⟨d, hd, hread⟩)
    | seed hread => exact .inr (.inr ⟨d, hd, hread⟩)

/-- The chosen entries have, under each name of a field, what the upper object says and otherwise
what the lower one does. -/
theorem lookup_chosen (under entries : List (String × Document)) (hname : name ∈ fieldNames) :
    lookup name (chosen under entries) = fieldOver under entries name := by
  rw [chosen, lookup_filterMap, if_pos hname]

theorem exists_lookup_chosen {P : String → Document → Prop} (hP : ∀ {name d}, P name d →
    name ∈ fieldNames) : (∃ name d, lookup name (chosen under entries) = some d ∧ P name d) ↔
      ∃ name d, fieldOver under entries name = some d ∧ P name d := by
  refine exists_congr fun name => exists_congr fun d => and_congr_left fun hd => ?_
  rw [lookup_chosen under entries (hP hd)]

/-- **What is read of two documents, one laid over the other**, is read of the fields that they come
to. -/
theorem ofDocument?_overlay (hentries : (Document.object entries).Tidy)
    (under : List (String × Document)) :
    ofDocument? ((Document.object under).overlay (.object entries)) =
      ofDocument? (.object (chosen under entries)) := by
  cases hentries with
  | whole h => cases h
  | object hn _ =>
    apply ofDocument?_congr
    intro name hname
    rw [lookup_chosen under entries hname, lookup_overlayEntries hn, fieldOver]
    cases lookup name entries with
    | none => rfl
    | some d =>
      -- a value that is laid over another one keeps its hull
      exact congrArg some (hull_overlay _ d)

/-- Without null among the customizations, what is read is what is read of both files, one on top of
the other. -/
theorem ofDocument?_chosen {lower upper : Settings}
    (hnull : ∀ name ∈ fieldNames, lookup name entries ≠ some .null)
    (hlower : ofDocument? (.object under) = some lower)
    (hupper : ofDocument? (.object entries) = some upper) :
    ofDocument? (.object (chosen under entries)) = some (lower.overlay upper) := by
  obtain ⟨hsize, hskip, hseed⟩ := ofDocument?_eq_some_iff.1 hlower
  obtain ⟨hsize', hskip', hseed'⟩ := ofDocument?_eq_some_iff.1 hupper
  apply ofDocument?_eq_some_iff.2
  rw [lookup_chosen under entries (by decide), lookup_chosen under entries (by decide),
    lookup_chosen under entries (by decide)]
  exact ⟨optional?_getD_or (hnull _ (by decide)) hsize' hsize,
    optional?_getD_or (hnull _ (by decide)) hskip' hskip,
    optional?_getD_or (hnull _ (by decide)) hseed' hseed⟩

/-- The customizations give the same for each field, and where they give nothing, so does what is
below them.  What is in lists and objects may differ, and so may everything else. -/
def SameFields (under entries under' entries' : List (String × Document)) : Prop :=
  ∀ name ∈ fieldNames, (lookup name entries).map hull = (lookup name entries').map hull ∧
    (lookup name entries = none → (lookup name under).map hull = (lookup name under').map hull)

/-- Objects with the same fields give the same settings, whatever else is in them. -/
theorem SameFields.ofDocument?_chosen (h : SameFields under entries under' entries') :
    ofDocument? (.object (chosen under entries)) =
      ofDocument? (.object (chosen under' entries')) := by
  apply ofDocument?_congr
  intro name hname
  obtain ⟨hupper, hlower⟩ := h name hname
  rw [lookup_chosen _ _ hname, lookup_chosen _ _ hname, fieldOver, fieldOver]
  cases hd : lookup name entries with
  | none =>
    rw [hd] at hupper
    rw [Option.map_eq_none_iff.1 hupper.symm, Option.none_or, Option.none_or]
    exact hlower hd
  | some d =>
    rw [hd] at hupper
    obtain ⟨d', hd', hhull⟩ := Option.map_eq_some_iff.1 hupper.symm
    rw [hd']
    exact congrArg some hhull.symm

end Settings

/-! ### Loading both files -/

namespace Config

open Settings

variable {formats : Formats} {files files' : FileSystem} {base custom path : String}
  {fresh fresh₁ fresh₂ : Cell} {c c₁ c₂ : Config} {s : Settings} {d d' : Document}
  {under entries under' entries' : List (String × Document)}

/-- The configuration of a document from the file at `path`. -/
def ofDocument (fresh : Cell) (path : String) (d : Document) : Except ConfigError Config := do
  ofSettings fresh (← settingsFrom path d)

theorem load_eq (formats : Formats) (files : FileSystem) (fresh : Cell) (path : String) :
    load formats files fresh path = loadDocument formats files path >>= ofDocument fresh path := rfl

theorem loadOverlaid_eq (formats : Formats) (files : FileSystem) (fresh : Cell)
    (base custom : String) : loadOverlaid formats files fresh base custom =
      loadDocument formats files base >>= fun lower =>
        loadDocument formats files custom >>= fun upper =>
          ofDocument fresh base (lower.overlay upper) := rfl

/-- A document that does not fit is malformed, and the error names the path. -/
theorem ofDocument_of_none (fresh : Cell) (path : String) (h : ofDocument? d = none) :
    ofDocument fresh path d = .error (.malformed path) := by
  unfold ofDocument settingsFrom
  rw [h]
  rfl

theorem ofDocument_of_some (fresh : Cell) (path : String) (h : ofDocument? d = some s) :
    ofDocument fresh path d = ofSettings fresh s := by
  unfold ofDocument settingsFrom
  rw [h]
  rfl

theorem ofDocument_congr (fresh : Cell) (path : String) (h : ofDocument? d = ofDocument? d') :
    ofDocument fresh path d = ofDocument fresh path d' := by
  unfold ofDocument settingsFrom
  rw [h]

/-- A configuration comes from settings that were read. -/
theorem exists_settings_of_ofDocument (h : ofDocument fresh path d = .ok c) :
    ∃ s, ofDocument? d = some s ∧ ofSettings fresh s = .ok c := by
  cases hs : ofDocument? d with
  | none =>
    rw [ofDocument_of_none fresh path hs] at h
    cases h
  | some s =>
    rw [ofDocument_of_some fresh path hs] at h
    exact ⟨s, rfl, h⟩

/-- An object is refused exactly if one of its fields is. -/
theorem ofDocument_error_iff (fresh : Cell) (path : String) :
    (∃ e, ofDocument fresh path (.object entries) = .error e) ↔
      ∃ name d, lookup name entries = some d ∧ Rejected name d := by
  cases hs : ofDocument? (.object entries) with
  | none =>
    obtain ⟨name, d, hd, hmisfit⟩ := ofDocument?_eq_none_iff.1 hs
    exact iff_of_true ⟨_, ofDocument_of_none fresh path hs⟩ ⟨name, d, hd, .misfit hmisfit⟩
  | some s =>
    -- the fields fit, so only the number of rounds can still be refused
    have hsize := (ofDocument?_eq_some_iff.1 hs).1
    rw [ofDocument_of_some fresh path hs]
    constructor
    · rintro ⟨e, he⟩
      obtain ⟨size, hs', hrefused⟩ := apply_eq_error_iff.1 he
      rw [hs'] at hsize
      cases hd : lookup "sample_size" entries with
      | none =>
        rw [hd] at hsize
        cases hsize
      | some d =>
        rw [hd] at hsize
        exact ⟨_, d, hd, .size (float?_of_optional? hsize) hrefused⟩
    · rintro ⟨name, d, hd, hrejected⟩
      cases hrejected with
      | misfit hmisfit =>
        rw [ofDocument?_eq_none_iff.2 ⟨name, d, hd, hmisfit⟩] at hs
        cases hs
      | @size _ size e hfloat hrefused =>
        refine ⟨e, apply_eq_error_iff.2 ⟨size, ?_, hrefused⟩⟩
        rw [hd] at hsize
        cases d with
        | number n =>
          have hread := Option.some.inj hsize
          exact hread ▸ hfloat
        | _ => cases hfloat

/-- Settings that are accepted on top of one configuration are accepted on top of any. -/
theorem exists_apply_ok (fresh' : Cell) (c' : Config) (h : c.apply fresh s = .ok c₁) :
    ∃ c₂, c'.apply fresh' s = .ok c₂ := by
  cases hc₂ : c'.apply fresh' s with
  | ok c₂ => exact ⟨c₂, rfl⟩
  | error e =>
    rw [apply_eq_error_iff.2 (apply_eq_error_iff.1 hc₂)] at h
    cases h

/-- Settings applied twice to one configuration come to the same, up to the cell of a new source. -/
theorem repeats_of_apply (h₁ : c.apply fresh₁ s = .ok c₁) (h₂ : c.apply fresh₂ s = .ok c₂) :
    c₂.Repeats c₁ fresh₁ fresh₂ := by
  obtain ⟨hsize₁, hskip₁, hrandom₁⟩ := apply_eq_ok_iff.1 h₁
  obtain ⟨hsize₂, hskip₂, hrandom₂⟩ := apply_eq_ok_iff.1 h₂
  refine ⟨Except.ok.inj (hsize₂.symm.trans hsize₁), hskip₂.trans hskip₁.symm, ?_⟩
  intro ω w hfresh₁ hfresh₂ n
  rw [hrandom₁, hrandom₂]
  cases s.seed with
  | none => rfl
  | some seed => exact draws_seeded_eq seed hfresh₂ hfresh₁ n

/-- Both files are there, and objects are read from them. -/
structure ReadsObjects (formats : Formats) (files : FileSystem) (base custom : String)
    (under entries : List (String × Document)) : Prop where
  isThere : files.isThere custom = true
  base_eq : loadDocument formats files base = .ok (.object under)
  custom_eq : loadDocument formats files custom = .ok (.object entries)

/-- Where both files have objects, what is loaded goes by the chosen entries, and nothing is logged.
-/
theorem ReadsObjects.loadCustomized_eq
    (h : ReadsObjects formats files base custom under entries)
    (hentries : (Document.object entries).Tidy) (fresh : Cell) :
    loadCustomized formats files fresh base custom =
      (ofDocument fresh base (.object (chosen under entries)), []) := by
  rw [loadCustomized, if_pos h.isThere, loadOverlaid_eq, h.base_eq, h.custom_eq]
  rw [← ofDocument_congr fresh base (ofDocument?_overlay hentries under)]
  rfl

/-- **Two files that are accepted by themselves are layers of settings**, if the upper one does not
take a field back. -/
theorem ReadsObjects.layered (h : ReadsObjects formats files base custom under entries)
    (hentries : (Document.object entries).Tidy)
    (hnull : ∀ name ∈ fieldNames, lookup name entries ≠ some .null)
    (hbase : load formats files fresh₁ base = .ok c₁)
    (hcustom : load formats files fresh₂ custom = .ok c₂) (fresh fresh' : Cell) :
    ∃ upper c c', settingsFrom custom (.object entries) = .ok upper ∧
      c₁.apply fresh' upper = .ok c' ∧
        loadCustomized formats files fresh base custom = (.ok c, []) ∧
          c.Repeats c' (upper.cellOver fresh₁ fresh') fresh := by
  rw [load_eq, h.base_eq] at hbase
  rw [load_eq, h.custom_eq] at hcustom
  obtain ⟨lower, hlower, hc₁⟩ := exists_settings_of_ofDocument hbase
  obtain ⟨upper, hupper, hc₂⟩ := exists_settings_of_ofDocument hcustom
  obtain ⟨c', hc'⟩ := exists_apply_ok fresh' c₁ hc₂
  -- the two layers at once, first with the cell that they leave and then with any
  have hboth := apply_overlay hc₁ hc'
  obtain ⟨c, hc⟩ := exists_apply_ok fresh initial hboth
  refine ⟨upper, c, c', ?_, hc', ?_, repeats_of_apply hboth hc⟩
  · rw [settingsFrom, hupper]
  · rw [h.loadCustomized_eq hentries,
      ofDocument_of_some fresh base (ofDocument?_chosen hnull hlower hupper)]
    exact congrArg (·, []) hc

/-- What comes of a base and its customizations, where an object is read from each. -/
structure Fieldwise (formats : Formats) (files : FileSystem) (base custom : String)
    (under entries : List (String × Document)) : Prop where
  /-- The settings are those in which each field has the value of the customizations, if they give
  one, and else that of the base, and nothing else is there. -/
  outcome_eq : ∀ fresh, loadCustomized formats files fresh base custom =
    (ofDocument fresh base (.object (chosen under entries)), [])
  /-- They are refused exactly if one of these values is. -/
  fails_iff : ∀ fresh, (∃ e, (loadCustomized formats files fresh base custom).1 = .error e) ↔
    ∃ name d, fieldOver under entries name = some d ∧ Rejected name d
  /-- A field of the base for which there is another value does not count, and neither do other keys
  or what is in lists and objects. -/
  eq_of_sameFields : ∀ fresh files' under' entries',
    ReadsObjects formats files' base custom under' entries' →
      SameFields under entries under' entries' →
        loadCustomized formats files' fresh base custom =
          loadCustomized formats files fresh base custom
  /-- If both files are accepted by themselves, and the customizations do not give null for a field,
  the base is loaded and the customizations are applied to it. -/
  layered : (∀ name ∈ fieldNames, lookup name entries ≠ some .null) →
    ∀ fresh fresh₁ fresh₂ fresh' c₁ c₂, load formats files fresh₁ base = .ok c₁ →
      load formats files fresh₂ custom = .ok c₂ →
        ∃ upper c c', settingsFrom custom (.object entries) = .ok upper ∧
          c₁.apply fresh' upper = .ok c' ∧
            loadCustomized formats files fresh base custom = (.ok c, []) ∧
              c.Repeats c' (upper.cellOver fresh₁ fresh') fresh

/-- Only the three fields of the settings can be rejected. -/
theorem Rejected.mem_fieldNames {name : String} (h : Rejected name d) : name ∈ fieldNames := by
  cases h with
  | misfit hmisfit => exact hmisfit.mem_fieldNames
  | size _ _ => decide

/-- **A customization goes field by field** wherever both files have objects. -/
theorem ReadsObjects.fieldwise (hformats : formats.Tidy)
    (h : ReadsObjects formats files base custom under entries) :
    Fieldwise formats files base custom under entries where
  outcome_eq := h.loadCustomized_eq (hformats.loadDocument h.custom_eq)
  fails_iff := by
    intro fresh
    rw [h.loadCustomized_eq (hformats.loadDocument h.custom_eq), ofDocument_error_iff]
    exact exists_lookup_chosen Rejected.mem_fieldNames
  eq_of_sameFields := by
    intro fresh files' under' entries' h' hsame
    rw [h.loadCustomized_eq (hformats.loadDocument h.custom_eq),
      h'.loadCustomized_eq (hformats.loadDocument h'.custom_eq),
      ofDocument_congr fresh base hsame.ofDocument?_chosen]
  layered := by
    intro hnull fresh fresh₁ fresh₂ fresh' c₁ c₂ hbase hcustom
    exact h.layered (hformats.loadDocument h.custom_eq) hnull hbase hcustom fresh fresh'

/-- **Customizations work field by field.**  Each field has the value that the customizations give,
even if that is null, and else that of the base, and nothing else in either file counts; if both
files are accepted by themselves, this is to apply the one on top of the other.  Without a file of
customizations, the base is loaded. -/
theorem loadCustomized_fieldwise (hformats : formats.Tidy) (files : FileSystem)
    (base custom : String) :
    (∀ under entries, ReadsObjects formats files base custom under entries →
      Fieldwise formats files base custom under entries) ∧
        (files.isThere custom = false → ∀ fresh,
          (loadCustomized formats files fresh base custom).1 = load formats files fresh base) := by
  refine ⟨fun under entries h => h.fieldwise hformats, fun hthere fresh => ?_⟩
  rw [loadCustomized, if_neg (by simp [hthere])]

end Config

/-! ### A laboratory, a bench and a visitor -/

namespace Laboratory

open Config

/-- The settings of a laboratory, with a seed that cannot be read, those of a bench, and those of a
visitor. -/
def files : FileSystem where
  read path :=
    if path = "laboratory.json" then
      .ok "\x7b\"sample_size\": 30, \"skip_validations\": false, \"seed\": \"none\"\x7d"
    else if path = "bench.json" then
      .ok "\x7b\"skip_validations\": true, \"seed\": 7, \"notes\": [1]\x7d"
    else if path = "visitor.json" then .ok "\x7b\"sample_size\": 4\x7d"
    else .error "No such file or directory (os error 2)"
  isThere path := path ∈ ["laboratory.json", "bench.json", "visitor.json"]

/-- What the bench gives. -/
def bench : List (String × Document) :=
  [("skip_validations", .bool true), ("seed", .number (.whole 7)),
    ("notes", .list [.number (.whole 1)])]

theorem bench_eq : loadDocument Formats.standard files "bench.json" = .ok (.object bench) := rfl

theorem readsObjects_laboratory :
    ReadsObjects Formats.standard files "laboratory.json" "bench.json"
      [("sample_size", .number (.whole 30)), ("skip_validations", .bool false),
        ("seed", .text "none")] bench :=
  ⟨rfl, rfl, bench_eq⟩

theorem readsObjects_bench : ReadsObjects Formats.standard files "bench.json" "visitor.json" bench
    [("sample_size", .number (.whole 4))] :=
  ⟨rfl, bench_eq, rfl⟩

/-- The laboratory is refused by itself, but not with the customizations of the bench; and those of
the visitor lie over the bench as if they were applied to it. -/
theorem bench_over_laboratory : Formats.standard.Tidy ∧
    load Formats.standard files ⟨0⟩ "laboratory.json" = .error (.malformed "laboratory.json") ∧
      loadCustomized Formats.standard files ⟨0⟩ "laboratory.json" "bench.json" =
        (.ok ⟨30, true, .seeded 7 ⟨0⟩⟩, []) ∧
      ∃ c c', (⟨15, true, .seeded 7 ⟨1⟩⟩ : Config).apply ⟨3⟩ ⟨some 4, none, none⟩ = .ok c' ∧
        loadCustomized Formats.standard files ⟨0⟩ "bench.json" "visitor.json" = (.ok c, []) ∧
          c.Repeats c' ⟨1⟩ ⟨0⟩ := by
  have hbench := (loadCustomized_fieldwise Formats.tidy_standard files
    "laboratory.json" "bench.json").1 _ _ readsObjects_laboratory
  have hvisitor := (loadCustomized_fieldwise Formats.tidy_standard files
    "bench.json" "visitor.json").1 _ _ readsObjects_bench
  refine ⟨Formats.tidy_standard, rfl, ?_, ?_⟩
  · rw [hbench.outcome_eq]
    rfl
  · have hnull : ∀ name ∈ Settings.fieldNames,
        lookup name [("sample_size", .number (.whole 4))] ≠ some .null := by
      simp [Settings.fieldNames, lookup]
    obtain ⟨upper, c, c', hupper, hc', hc, hrepeats⟩ := hvisitor.layered hnull ⟨0⟩ ⟨1⟩ ⟨2⟩ ⟨3⟩
      ⟨15, true, .seeded 7 ⟨1⟩⟩ ⟨4, false, .ambient⟩ rfl rfl
    obtain rfl : (⟨some 4, none, none⟩ : Settings) = upper := Except.ok.inj hupper
    exact ⟨c, c', hc', hc, hrepeats⟩

end Laboratory

end Lawbook

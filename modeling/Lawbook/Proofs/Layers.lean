/-
Lawbook/Proofs/Layers.lean

Layers of settings: overrides on top of a configuration, and settings on top of settings.

Overrides are read in two stages.  First the texts at all keys are read, in the order of the keys,
and only then the sample size is put to the test.  `FirstFault` says which fault is reported, so a
text at the last key that cannot be read comes before a sample size that is out of range.  Where
nothing is wrong, the configuration is the old one with the settings applied that hold exactly what
is given (`Settings.Holds`).

To apply settings is to take each field from them where it is present (`Config.apply_eq_ok_iff`).
So settings on top of settings are applied as their overlay, if none of the two is refused: a size
that is refused is not mended by a later one.  A seed makes a new source each time; two of them for
one seed give the same numbers (`Source.Follows.draws_eq`).

Main result: `Config.overrides_layered`.
-/
import Lawbook.Config.Overrides
import Lawbook.Proofs.Draws

namespace Lawbook

variable {β ω : Type}

/-! ### What is given at the keys -/

/-- The place of a key in the order in which overrides are read. -/
def OverrideKey.rank : OverrideKey → Nat
  | sampleSize => 0
  | skip => 1
  | seed => 2

/-- A text cannot be read as what a key stands for. -/
def NumberReaders.Refuses (readers : NumberReaders) (text : String) : OverrideKey → Prop
  | .sampleSize => readers.float? text = none
  | .skip => switch? text = none
  | .seed => readers.seed? text = none

/-- A text is given at a key, and it cannot be read. -/
def Unreadable (readers : NumberReaders) (lookup : String → Option String) (key : OverrideKey)
    (raw : String) : Prop :=
  lookup key.name = some raw ∧ readers.Refuses (Text.trim raw) key

/-- A text is given at a key, and it is read as this value. -/
def GivenAs (read : String → Option β) (lookup : String → Option String) (key : OverrideKey)
    (b : β) : Prop :=
  ∃ raw, lookup key.name = some raw ∧ read (Text.trim raw) = some b

/-- The settings hold exactly what is given and can be read. -/
structure Settings.Holds (settings : Settings) (readers : NumberReaders)
    (lookup : String → Option String) : Prop where
  sampleSize_iff : ∀ size, settings.sampleSize = some size ↔
    GivenAs readers.float? lookup .sampleSize size
  skip_iff : ∀ skip, settings.skip = some skip ↔ GivenAs switch? lookup .skip skip
  seed_iff : ∀ seed, settings.seed = some seed ↔ GivenAs readers.seed? lookup .seed seed

/-- The first thing that is wrong with overrides. -/
inductive FirstFault (readers : NumberReaders) (lookup : String → Option String) :
    ConfigError → Prop
  /-- A text that cannot be read, where those at the keys before it can. -/
  | unreadable {key : OverrideKey} {raw : String} :
      (∀ other other', other.rank < key.rank → ¬ Unreadable readers lookup other other') →
      Unreadable readers lookup key raw →
      FirstFault readers lookup (.invalidOverride key.name raw)
  /-- A sample size that is refused, where all texts can be read. -/
  | refused {size : Float} {e : ConfigError} :
      (∀ key raw, ¬ Unreadable readers lookup key raw) →
      GivenAs readers.float? lookup .sampleSize size → roundsOf size = .error e →
      FirstFault readers lookup e

/-- What is given at one key, or is wrong with it. -/
inductive OverrideRead (read : String → Option β) (lookup : String → Option String)
    (key : OverrideKey) : Except ConfigError (Option β) → Prop
  | absent : lookup key.name = none → OverrideRead read lookup key (.ok none)
  | given {raw : String} {b : β} : lookup key.name = some raw → read (Text.trim raw) = some b →
      OverrideRead read lookup key (.ok (some b))
  | unreadable {raw : String} : lookup key.name = some raw → read (Text.trim raw) = none →
      OverrideRead read lookup key (.error (.invalidOverride key.name raw))

section Read

variable {read : String → Option β} {lookup : String → Option String} {key : OverrideKey}

theorem readOverride_read (read : String → Option β) (lookup : String → Option String)
    (key : OverrideKey) : OverrideRead read lookup key (readOverride key read lookup) := by
  unfold readOverride
  cases hraw : lookup key.name with
  | none => exact .absent hraw
  | some raw =>
    dsimp only
    cases hb : read (Text.trim raw) with
    | none => exact .unreadable hraw hb
    | some b => exact .given hraw hb

theorem OverrideRead.ok_iff {field : Option β} (h : OverrideRead read lookup key (.ok field))
    (b : β) : field = some b ↔ GivenAs read lookup key b := by
  constructor
  · rintro rfl
    cases h with
    | given hraw hb => exact ⟨_, hraw, hb⟩
  · rintro ⟨raw, hraw, hb⟩
    cases h with
    | absent hnone =>
      rw [hnone] at hraw
      cases hraw
    | given hraw' hb' =>
      rw [hraw] at hraw'
      cases hraw'
      exact hb'.symm.trans hb

/-- What was read can be read. -/
theorem OverrideRead.readable {field : Option β} (h : OverrideRead read lookup key (.ok field))
    {raw : String} (hraw : lookup key.name = some raw) : read (Text.trim raw) ≠ none := by
  intro hnone
  cases h with
  | absent habsent =>
    rw [habsent] at hraw
    cases hraw
  | given hraw' hb =>
    rw [hraw] at hraw'
    cases hraw'
    rw [hnone] at hb
    cases hb

/-- A field that holds what is given is absent where nothing is given. -/
theorem eq_none_of_absent {field : Option β}
    (hfield : ∀ b, field = some b ↔ GivenAs read lookup key b)
    (hnone : lookup key.name = none) : field = none := by
  apply Option.eq_none_iff_forall_not_mem.2
  intro b hb
  obtain ⟨raw, hraw, -⟩ := (hfield b).1 hb
  rw [hnone] at hraw
  cases hraw

end Read

/-! ### Reading all keys -/

section Overrides

variable {readers : NumberReaders} {lookup : String → Option String}

/-- What comes of reading all keys: settings that hold what is given, or the first text that cannot
be read. -/
inductive OverridesRead (readers : NumberReaders) (lookup : String → Option String) :
    Except ConfigError Settings → Prop
  | read {settings : Settings} : (∀ key raw, ¬ Unreadable readers lookup key raw) →
      settings.Holds readers lookup → OverridesRead readers lookup (.ok settings)
  | unreadable {key : OverrideKey} {raw : String} :
      (∀ other other', other.rank < key.rank → ¬ Unreadable readers lookup other other') →
      Unreadable readers lookup key raw →
      OverridesRead readers lookup (.error (.invalidOverride key.name raw))

theorem readOverrides_read (readers : NumberReaders) (lookup : String → Option String) :
    OverridesRead readers lookup (readOverrides readers lookup) := by
  have hsize := readOverride_read readers.float? lookup .sampleSize
  have hskip := readOverride_read switch? lookup .skip
  have hseed := readOverride_read readers.seed? lookup .seed
  unfold readOverrides
  -- key by key, so that a text is found unreadable after those before it were read
  generalize readOverride .sampleSize readers.float? lookup = first at hsize ⊢
  cases first with
  | error e =>
    cases hsize with
    | unreadable hraw hnone =>
      refine .unreadable (fun other _ hlt => ?_) ⟨hraw, hnone⟩
      exact absurd hlt (Nat.not_lt_zero _)
  | ok size =>
    have hfirst : ∀ raw, ¬ Unreadable readers lookup .sampleSize raw :=
      fun raw ⟨hraw, hnone⟩ => hsize.readable hraw hnone
    generalize readOverride .skip switch? lookup = second at hskip ⊢
    cases second with
    | error e =>
      cases hskip with
      | unreadable hraw hnone =>
        refine .unreadable (fun other other' hlt => ?_) ⟨hraw, hnone⟩
        cases other with
        | sampleSize => exact hfirst other'
        | skip => exact absurd hlt (by decide)
        | seed => exact absurd hlt (by decide)
    | ok skip =>
      have hsecond : ∀ raw, ¬ Unreadable readers lookup .skip raw :=
        fun raw ⟨hraw, hnone⟩ => hskip.readable hraw hnone
      generalize readOverride .seed readers.seed? lookup = third at hseed ⊢
      cases third with
      | error e =>
        cases hseed with
        | unreadable hraw hnone =>
          refine .unreadable (fun other other' hlt => ?_) ⟨hraw, hnone⟩
          cases other with
          | sampleSize => exact hfirst other'
          | skip => exact hsecond other'
          | seed => exact absurd hlt (by decide)
      | ok seed =>
        refine .read (fun key raw => ?_) ⟨hsize.ok_iff, hskip.ok_iff, hseed.ok_iff⟩
        cases key with
        | sampleSize => exact hfirst raw
        | skip => exact hsecond raw
        | seed => exact fun ⟨hraw, hnone⟩ => hseed.readable hraw hnone

end Overrides

/-! ### Applying settings -/

/-- The rounds that settings ask for, or those of the configuration below. -/
def Settings.rounds (settings : Settings) (below : Nat) : Except ConfigError Nat :=
  match settings.sampleSize with
  | none => .ok below
  | some size => roundsOf size

/-- Settings on top of others: each field where it is present, and else the field below. -/
def Settings.overlay (lower upper : Settings) : Settings :=
  ⟨upper.sampleSize.or lower.sampleSize, upper.skip.or lower.skip, upper.seed.or lower.seed⟩

/-- The cell of the source that settings on top of others come with.  New sources differ by their
cells, so one that is made at once is given the cell of the one that it is compared with. -/
def Settings.cellOver (upper : Settings) (below own : Cell) : Cell :=
  if upper.seed.isSome then own else below

namespace Settings

variable {settings lower upper : Settings} {below rounds rounds' : Nat}

/-- Rounds that were accepted may be left, or replaced. -/
theorem rounds_overlay (hlower : lower.rounds below = .ok rounds)
    (hupper : upper.rounds rounds = .ok rounds') :
    (lower.overlay upper).rounds below = .ok rounds' := by
  unfold Settings.rounds at hlower hupper ⊢
  unfold Settings.overlay
  cases hs : upper.sampleSize with
  | none =>
    rw [hs] at hupper
    rw [Option.none_or, ← Except.ok.inj hupper]
    exact hlower
  | some size =>
    rw [hs] at hupper
    exact hupper

/-- The same settings a second time leave the rounds as they are. -/
theorem rounds_again (h : settings.rounds below = .ok rounds) :
    settings.rounds rounds = .ok rounds := by
  unfold Settings.rounds at h ⊢
  cases hs : settings.sampleSize with
  | none => rfl
  | some size =>
    rw [hs] at h
    exact h

end Settings

namespace Config

variable {c c' c₁ c₂ : Config} {fresh fresh' : Cell} {settings lower upper : Settings}

/-- Each field comes from the settings where they have it. -/
theorem apply_eq (fresh : Cell) (settings : Settings) (c : Config) :
    c.apply fresh settings = (settings.rounds c.sampleSize).map fun rounds =>
      ⟨rounds, settings.skip.getD c.skip,
        (settings.seed.map (Source.seeded · fresh)).getD c.random⟩ := by
  obtain ⟨size, skip, seed⟩ := settings
  cases size with
  | none => cases skip <;> cases seed <;> rfl
  | some size =>
    unfold apply setSampleSize Settings.rounds
    dsimp only
    cases roundsOf size <;> cases skip <;> cases seed <;> rfl

theorem apply_eq_ok_iff : c.apply fresh settings = .ok c' ↔
    settings.rounds c.sampleSize = .ok c'.sampleSize ∧ c'.skip = settings.skip.getD c.skip ∧
      c'.random = (settings.seed.map (Source.seeded · fresh)).getD c.random := by
  rw [apply_eq]
  cases settings.rounds c.sampleSize with
  | error e => simp [Except.map]
  | ok rounds =>
    obtain ⟨size, skip, random⟩ := c'
    simp [Except.map, eq_comm]

/-- Settings are refused because of their sample size only. -/
theorem apply_eq_error_iff {e : ConfigError} : c.apply fresh settings = .error e ↔
    ∃ size, settings.sampleSize = some size ∧ roundsOf size = .error e := by
  rw [apply_eq, Settings.rounds]
  cases settings.sampleSize with
  | none => simp [Except.map]
  | some size => cases hsize : roundsOf size <;> simp [Except.map, hsize]

/-- **Settings on top of settings are their overlay.**  It takes the later seed if there is one,
and with it the source that was made for it. -/
theorem apply_overlay (hlower : c.apply fresh lower = .ok c₁)
    (hupper : c₁.apply fresh' upper = .ok c₂) :
    c.apply (upper.cellOver fresh fresh') (lower.overlay upper) = .ok c₂ := by
  obtain ⟨hsize, hskip, hrandom⟩ := apply_eq_ok_iff.1 hlower
  obtain ⟨hsize', hskip', hrandom'⟩ := apply_eq_ok_iff.1 hupper
  apply apply_eq_ok_iff.2
  refine ⟨Settings.rounds_overlay hsize hsize', ?_, ?_⟩
  · rw [hskip', hskip, Settings.overlay]
    cases upper.skip <;> rfl
  · rw [hrandom', hrandom, Settings.overlay, Settings.cellOver]
    cases upper.seed <;> rfl

/-- A configuration that comes of settings given twice, next to the one that comes of them once. -/
structure Repeats (twice once : Config) (fresh fresh' : Cell) : Prop where
  sampleSize_eq : twice.sampleSize = once.sampleSize
  skip_eq : twice.skip = once.skip
  /-- The numbers are the same, wherever nothing was drawn through the cells of new sources. -/
  draws_eq : ∀ (ω : Type) (w : World ω), w.cursors.position fresh = 0 →
    w.cursors.position fresh' = 0 → ∀ n, (twice.random.draws n w).1 = (once.random.draws n w).1

/-- Two new sources of one seed both read its stream from the start. -/
theorem draws_seeded_eq {ω : Type} {w : World ω} (seed : UInt64)
    (hfresh : w.cursors.position fresh = 0) (hfresh' : w.cursors.position fresh' = 0) (n : Nat) :
    ((Source.seeded seed fresh).draws n w).1 = ((Source.seeded seed fresh').draws n w).1 := by
  rw [(Source.Follows.seeded seed fresh).draws_eq, (Source.Follows.seeded seed fresh').draws_eq,
    hfresh, hfresh']

theorem apply_again (fresh' : Cell) (h : c.apply fresh settings = .ok c₁) :
    ∃ c₂, c₁.apply fresh' settings = .ok c₂ ∧ c₂.Repeats c₁ fresh fresh' := by
  obtain ⟨hsize, hskip, hrandom⟩ := apply_eq_ok_iff.1 h
  let c₂ : Config := ⟨c₁.sampleSize, settings.skip.getD c₁.skip,
    (settings.seed.map (Source.seeded · fresh')).getD c₁.random⟩
  refine ⟨c₂, apply_eq_ok_iff.2 ⟨Settings.rounds_again hsize, rfl, rfl⟩, rfl, ?_, ?_⟩
  · show settings.skip.getD c₁.skip = c₁.skip
    rw [hskip]
    cases settings.skip <;> rfl
  · intro ω w hfresh hfresh' n
    show (((settings.seed.map (Source.seeded · fresh')).getD c₁.random).draws n w).1 = _
    cases hseed : settings.seed with
    | none => rfl
    | some seed =>
      rw [hseed] at hrandom
      rw [hrandom]
      exact draws_seeded_eq seed hfresh' hfresh n

/-! ### Overrides -/

variable {readers : NumberReaders} {lookup : String → Option String}

/-- What comes of overrides on top of a configuration. -/
structure Overridden (c : Config) (readers : NumberReaders) (fresh : Cell)
    (lookup : String → Option String) (outcome : Except ConfigError Config) : Prop where
  /-- They fail exactly if something that is given cannot be read or is refused as a sample
  size, -/
  fails_iff : (∃ e, outcome = .error e) ↔ (∃ key raw, Unreadable readers lookup key raw) ∨
    ∃ size e, GivenAs readers.float? lookup .sampleSize size ∧ roundsOf size = .error e
  /-- and the error is that of the first fault. -/
  error_iff : ∀ e, outcome = .error e ↔ FirstFault readers lookup e
  /-- Otherwise the settings are applied that hold exactly what is given. -/
  applied : ∀ c', outcome = .ok c' →
    ∃ settings : Settings, settings.Holds readers lookup ∧ c.apply fresh settings = .ok c'
  /-- A field at whose key nothing is given stays as it is. -/
  sampleSize_eq : ∀ c', outcome = .ok c' → lookup OverrideKey.sampleSize.name = none →
    c'.sampleSize = c.sampleSize
  skip_eq : ∀ c', outcome = .ok c' → lookup OverrideKey.skip.name = none → c'.skip = c.skip
  random_eq : ∀ c', outcome = .ok c' → lookup OverrideKey.seed.name = none → c'.random = c.random

/-- Two keys of which none comes before the other are the same. -/
theorem eq_of_rank {key key' : OverrideKey} (hle : ¬ key'.rank < key.rank)
    (hge : ¬ key.rank < key'.rank) : key = key' := by
  have hrank : key.rank = key'.rank := by omega
  cases key <;> cases key' <;> first | rfl | cases hrank

/-- Where a text cannot be read, it is the first fault. -/
theorem overridden_of_unreadable {key : OverrideKey} {raw : String}
    (hfirst : ∀ other other', other.rank < key.rank → ¬ Unreadable readers lookup other other')
    (hkey : Unreadable readers lookup key raw) :
    c.Overridden readers fresh lookup (.error (.invalidOverride key.name raw)) where
  fails_iff := iff_of_true ⟨_, rfl⟩ (.inl ⟨key, raw, hkey⟩)
  error_iff := by
    intro e
    constructor
    · rintro ⟨⟩
      exact .unreadable hfirst hkey
    · intro he
      cases he with
      | refused hall _ _ => exact absurd hkey (hall key raw)
      | @unreadable key' raw' hfirst' hkey' =>
        have heq : key = key' :=
          eq_of_rank (fun hlt => hfirst key' raw' hlt hkey') (fun hlt => hfirst' key raw hlt hkey)
        subst heq
        rw [Option.some.inj (hkey.1.symm.trans hkey'.1)]
  applied := nofun
  sampleSize_eq := nofun
  skip_eq := nofun
  random_eq := nofun

/-- Where all texts can be read, what is wrong is a sample size that is refused. -/
theorem firstFault_iff_refused (hall : ∀ key raw, ¬ Unreadable readers lookup key raw)
    (hs : settings.Holds readers lookup) {e : ConfigError} :
    FirstFault readers lookup e ↔ c.apply fresh settings = .error e := by
  rw [apply_eq_error_iff]
  constructor
  · intro he
    cases he with
    | unreadable _ hkey => exact absurd hkey (hall _ _)
    | refused _ hsize herror => exact ⟨_, (hs.sampleSize_iff _).2 hsize, herror⟩
  · rintro ⟨size, hsize, herror⟩
    exact .refused hall ((hs.sampleSize_iff size).1 hsize) herror

theorem overridden_of_holds (hall : ∀ key raw, ¬ Unreadable readers lookup key raw)
    (hs : settings.Holds readers lookup) :
    c.Overridden readers fresh lookup (c.apply fresh settings) where
  fails_iff := by
    constructor
    · rintro ⟨e, he⟩
      obtain ⟨size, hsize, herror⟩ := apply_eq_error_iff.1 he
      exact .inr ⟨size, e, (hs.sampleSize_iff size).1 hsize, herror⟩
    · rintro (⟨key, raw, hkey⟩ | ⟨size, e, hsize, herror⟩)
      · exact absurd hkey (hall key raw)
      · exact ⟨e, apply_eq_error_iff.2 ⟨size, (hs.sampleSize_iff size).2 hsize, herror⟩⟩
  error_iff := fun e => (firstFault_iff_refused hall hs).symm
  applied := fun c' hc' => ⟨settings, hs, hc'⟩
  sampleSize_eq := by
    intro c' hc' habsent
    have hrounds := (apply_eq_ok_iff.1 hc').1
    rw [Settings.rounds, eq_none_of_absent hs.sampleSize_iff habsent] at hrounds
    exact (Except.ok.inj hrounds).symm
  skip_eq := by
    intro c' hc' habsent
    rw [(apply_eq_ok_iff.1 hc').2.1, eq_none_of_absent hs.skip_iff habsent]
    rfl
  random_eq := by
    intro c' hc' habsent
    rw [(apply_eq_ok_iff.1 hc').2.2, eq_none_of_absent hs.seed_iff habsent]
    rfl

theorem withOverrides_of_ok (hread : readOverrides readers lookup = .ok settings) (fresh : Cell)
    (c : Config) : c.withOverrides readers fresh lookup = c.apply fresh settings := by
  rw [withOverrides, hread]
  rfl

theorem withOverrides_of_error {e : ConfigError} (hread : readOverrides readers lookup = .error e)
    (fresh : Cell) (c : Config) : c.withOverrides readers fresh lookup = .error e := by
  rw [withOverrides, hread]
  rfl

theorem withOverrides_overridden (readers : NumberReaders) (fresh : Cell)
    (lookup : String → Option String) (c : Config) :
    c.Overridden readers fresh lookup (c.withOverrides readers fresh lookup) := by
  have hread := readOverrides_read readers lookup
  cases h : readOverrides readers lookup with
  | error e =>
    rw [h] at hread
    rw [withOverrides_of_error h]
    cases hread with
    | unreadable hfirst hkey => exact overridden_of_unreadable hfirst hkey
  | ok settings =>
    rw [h] at hread
    rw [withOverrides_of_ok h]
    cases hread with
    | read hall hs => exact overridden_of_holds hall hs

/-- Overrides that were accepted are accepted again, and say the same. -/
theorem withOverrides_again (fresh' : Cell) (h : c.withOverrides readers fresh lookup = .ok c₁) :
    ∃ c₂, c₁.withOverrides readers fresh' lookup = .ok c₂ ∧ c₂.Repeats c₁ fresh fresh' := by
  cases hread : readOverrides readers lookup with
  | error e =>
    rw [withOverrides_of_error hread] at h
    cases h
  | ok settings =>
    rw [withOverrides_of_ok hread] at h
    rw [withOverrides_of_ok hread]
    exact apply_again fresh' h

/-- **Overrides are read as a whole and applied as settings, and settings apply in layers.**  The
configuration is that of the settings that hold exactly what is given, or the error is that of the
first fault.  Settings on top of settings are their overlay, and the same overrides on top of
themselves give the same size, switch and numbers. -/
theorem overrides_layered (readers : NumberReaders) (lookup : String → Option String)
    (c : Config) :
    (∀ fresh, c.Overridden readers fresh lookup (c.withOverrides readers fresh lookup)) ∧
      (∀ fresh fresh' lower upper c₁ c₂, c.apply fresh lower = .ok c₁ →
        c₁.apply fresh' upper = .ok c₂ →
          c.apply (upper.cellOver fresh fresh') (lower.overlay upper) = .ok c₂) ∧
      ∀ fresh fresh' c₁, c.withOverrides readers fresh lookup = .ok c₁ →
        ∃ c₂, c₁.withOverrides readers fresh' lookup = .ok c₂ ∧ c₂.Repeats c₁ fresh fresh' := by
  refine ⟨fun fresh => withOverrides_overridden readers fresh lookup c, ?_, ?_⟩
  · intro fresh fresh' lower upper c₁ c₂ hlower hupper
    exact apply_overlay hlower hupper
  · intro fresh fresh' c₁ h
    exact withOverrides_again fresh' h

/-- A switch that cannot be read is reported, although the sample size would be refused as well. -/
example : Config.initial.withOverrides ⟨fun _ => some (-1.0), fun _ => none⟩ ⟨0⟩
    (fun key => if key = OverrideKey.seed.name then none else some "maybe") =
      .error (.invalidOverride OverrideKey.skip.name "maybe") := by rfl

end Config

end Lawbook

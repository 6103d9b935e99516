/-
Lawbook/Proofs/Holdings.lean

Holdings: the configurations that a program has, and what it can make of them.

A program starts with the shared configuration alone.  From then on it takes copies of that one,
makes configurations out of others, out of settings, files or overrides, and puts one that it has
in the place of the shared one.  Whatever says how many rounds there are goes through `roundsOf`, so
no configuration gets there with fewer rounds than the two edge rounds
(`Operation.carry_sound`, `Holdings.after_sound`), and what is refused leaves everything as it was
(`Operation.final_carry_of_error`).

So the edge rounds cannot be configured away: a law that is checked with any of these configurations
and holds was found to hold in both of them.

Main result: `Holdings.after_keepsEdges`.
-/
import Lawbook.Config.File
import Lawbook.Config.Overrides
import Lawbook.Config.Shared
import Lawbook.Proofs.Rounds

namespace Lawbook

variable {ε σ ω α β : Type}

/-! ### Sizes that are accepted -/

/-- Two steps that may fail come out well only if both do.  With it the setters are taken apart. -/
theorem exists_of_bind_eq_ok {x : Except ε α} {f : α → Except ε β} {b : β}
    (h : x >>= f = .ok b) : ∃ a, x = .ok a ∧ f a = .ok b := by
  cases x with
  | error e => cases h
  | ok a => exact ⟨a, rfl, h⟩

namespace Config

variable {c c' : Config} {fresh : Cell}

/-- A number of rounds that is accepted covers both edges. -/
theorem two_le_of_setSampleSize {size : Float} (h : c.setSampleSize size = .ok c') :
    2 ≤ c'.sampleSize := by
  unfold setSampleSize at h
  cases hr : roundsOf size with
  | error e =>
    rw [hr] at h
    cases h
  | ok rounds =>
    rw [hr] at h
    cases h
    exact two_le_of_roundsOf hr

/-- Settings without a sample size leave the sample size as it is. -/
theorem two_le_of_apply {settings : Settings} (hc : 2 ≤ c.sampleSize)
    (h : c.apply fresh settings = .ok c') : 2 ≤ c'.sampleSize := by
  obtain ⟨size, skip, seed⟩ := settings
  -- only a size that is given can be refused
  cases size with
  | none => cases skip <;> cases seed <;> cases h <;> exact hc
  | some size =>
    obtain ⟨sized, hsized, hrest⟩ := exists_of_bind_eq_ok h
    have htwo := two_le_of_setSampleSize hsized
    cases skip <;> cases seed <;> cases hrest <;> exact htwo

/-- A number of rounds that comes from settings goes through the same check. -/
theorem two_le_of_ofSettings {settings : Settings} (h : ofSettings fresh settings = .ok c') :
    2 ≤ c'.sampleSize :=
  two_le_of_apply (by decide) h

variable {formats : Formats} {files : FileSystem}

theorem two_le_of_load {path : String} (h : load formats files fresh path = .ok c') :
    2 ≤ c'.sampleSize := by
  obtain ⟨_, _, h⟩ := exists_of_bind_eq_ok h
  obtain ⟨_, _, h⟩ := exists_of_bind_eq_ok h
  exact two_le_of_ofSettings h

theorem two_le_of_loadOverlaid {base custom : String}
    (h : loadOverlaid formats files fresh base custom = .ok c') : 2 ≤ c'.sampleSize := by
  obtain ⟨_, _, h⟩ := exists_of_bind_eq_ok h
  obtain ⟨_, _, h⟩ := exists_of_bind_eq_ok h
  obtain ⟨_, _, h⟩ := exists_of_bind_eq_ok h
  exact two_le_of_ofSettings h

/-- A customized configuration covers both edges, whether the customization was there or not. -/
theorem two_le_of_loadCustomized {base custom : String}
    (h : (loadCustomized formats files fresh base custom).1 = .ok c') : 2 ≤ c'.sampleSize := by
  unfold loadCustomized at h
  split at h
  · exact two_le_of_loadOverlaid h
  · exact two_le_of_load h

/-- Overrides leave a number of rounds that covers both edges, or set another one that does. -/
theorem two_le_of_withOverrides {readers : NumberReaders} {lookup : String → Option String}
    (hc : 2 ≤ c.sampleSize) (h : c.withOverrides readers fresh lookup = .ok c') :
    2 ≤ c'.sampleSize := by
  obtain ⟨_, _, h⟩ := exists_of_bind_eq_ok h
  exact two_le_of_apply hc h

end Config

/-! ### Making configurations -/

/-- A way of making a configuration, out of another one if it needs one. -/
inductive Making where
  | initial
  | setSampleSize (size : Float)
  | setSkip (skip : Bool)
  | setRandom (random : Source)
  | apply (fresh : Cell) (settings : Settings)
  | ofSettings (fresh : Cell) (settings : Settings)
  | load (formats : Formats) (files : FileSystem) (fresh : Cell) (path : String)
  | loadCustomized (formats : Formats) (files : FileSystem) (fresh : Cell) (base custom : String)
  | withOverrides (readers : NumberReaders) (fresh : Cell) (lookup : String → Option String)

namespace Making

/-- The configuration that is made out of `c`, or why there is none, and what is logged. -/
def make (c : Config) : Making → Except ConfigError Config × List Notice
  | initial => (.ok .initial, [])
  | setSampleSize size => (c.setSampleSize size, [])
  | setSkip skip => (.ok (c.setSkip skip), [])
  | setRandom random => (.ok (c.setRandom random), [])
  | apply fresh settings => (c.apply fresh settings, [])
  | ofSettings fresh settings => (Config.ofSettings fresh settings, [])
  | load formats files fresh path => (Config.load formats files fresh path, [])
  | loadCustomized formats files fresh base custom =>
    Config.loadCustomized formats files fresh base custom
  | withOverrides readers fresh lookup => (c.withOverrides readers fresh lookup, [])

/-- What is made out of a configuration with both edge rounds has them too. -/
theorem two_le {c c' : Config} (how : Making) (hc : 2 ≤ c.sampleSize)
    (h : (how.make c).1 = .ok c') : 2 ≤ c'.sampleSize := by
  cases how with
  | initial =>
    cases h
    decide
  | setSampleSize size => exact Config.two_le_of_setSampleSize h
  | setSkip skip =>
    cases h
    exact hc
  | setRandom random =>
    cases h
    exact hc
  | apply fresh settings => exact Config.two_le_of_apply hc h
  | ofSettings fresh settings => exact Config.two_le_of_ofSettings h
  | load formats files fresh path => exact Config.two_le_of_load h
  | loadCustomized formats files fresh base custom => exact Config.two_le_of_loadCustomized h
  | withOverrides readers fresh lookup => exact Config.two_le_of_withOverrides hc h

end Making

/-! ### What a program holds -/

/-- The configurations of a program: those that it has in its hands, in the order in which it got
them, and the shared one. -/
structure Holdings where
  held : List Config
  shared : Config

namespace Holdings

/-- Nothing was made yet. -/
def start : Holdings := ⟨[], .initial⟩

/-- All configurations of a program. -/
def all (h : Holdings) : List Config :=
  h.shared :: h.held

/-- The configuration at a place.  Where none is held, it is a new one. -/
def pick (h : Holdings) (i : Nat) : Config :=
  h.held.getD i .initial

/-- The holdings with one more configuration. -/
def hold (h : Holdings) (c : Config) : Holdings :=
  { h with held := h.held ++ [c] }

/-- Every configuration has both edge rounds. -/
def Sound (h : Holdings) : Prop :=
  ∀ c ∈ h.all, 2 ≤ c.sampleSize

variable {h : Holdings}

/-- A program starts with the default configuration, which covers both edges. -/
theorem start_sound : start.Sound := by
  simp [Sound, all, start, Config.initial]

theorem Sound.pick (hs : h.Sound) (i : Nat) : 2 ≤ (h.pick i).sampleSize := by
  unfold Holdings.pick
  rw [List.getD_eq_getElem?_getD]
  cases hi : h.held[i]? with
  | none => decide
  | some c => exact hs c (List.mem_cons_of_mem _ (List.mem_of_getElem? hi))

/-- To hold one configuration more keeps all of them sound. -/
theorem Sound.hold (hs : h.Sound) {c : Config} (hc : 2 ≤ c.sampleSize) : (h.hold c).Sound := by
  intro c' hc'
  simp only [all, Holdings.hold, List.mem_cons, List.mem_append, List.not_mem_nil, or_false] at hc'
  rcases hc' with rfl | hc' | rfl
  · exact hs _ List.mem_cons_self
  · exact hs _ (List.mem_cons_of_mem _ hc')
  · exact hc

/-- To make a sound configuration the shared one keeps all of them sound. -/
theorem Sound.share (hs : h.Sound) {c : Config} (hc : 2 ≤ c.sampleSize) :
    Sound { h with shared := c } :=
  List.forall_mem_cons.2 ⟨hc, (List.forall_mem_cons.1 hs).2⟩

end Holdings

/-! ### Operations -/

/-- What a program can do with configurations. -/
inductive Operation where
  /-- A configuration is made, out of the one at a place. -/
  | make (how : Making) (i : Nat)
  /-- A copy of the shared configuration is taken. -/
  | current
  | shareSampleSize (size : Float)
  | shareSkip (skip : Bool)
  | shareRandom (random : Source)
  /-- The configuration at a place becomes the shared one. -/
  | replace (i : Nat)
  | reset

namespace Operation

/-- An operation on the shared configuration.  No values are sampled on the way. -/
def share (m : SharedConfig Empty β) : Run Holdings (Event Empty) β :=
  Run.within Holdings.shared (fun shared h => { h with shared }) m

/-- Carries an operation out: whether it is refused, and the holdings afterwards. -/
def carry : Operation → Run Holdings (Event Empty) (Except ConfigError Unit)
  | make how i => fun h =>
    match how.make (h.pick i) with
    | (.ok c, ns) => (.ok (), h.hold c, ns.map .logged)
    | (.error e, ns) => (.error e, h, ns.map .logged)
  | current => do
    let c ← share SharedConfig.current
    Run.host fun h => (.ok (), h.hold c)
  | shareSampleSize size => do
    match ← share (SharedConfig.setSampleSize size) with
    | .ok _ => return .ok ()
    | .error e => return .error e
  | shareSkip skip => .ok <$> share (SharedConfig.setSkip skip)
  | shareRandom random => .ok <$> share (SharedConfig.setRandom random)
  | replace i => fun h => (.ok <$> share (SharedConfig.replace (h.pick i))) h
  | reset => .ok <$> share SharedConfig.reset

/-- An operation that is refused leaves all configurations as they were. -/
theorem final_carry_of_error {op : Operation} {h : Holdings} {e : ConfigError}
    (he : op.carry.value h = .error e) : op.carry.final h = h := by
  -- these two are the only operations that can be refused
  cases op with
  | make how i =>
    revert he
    unfold Run.value Run.final carry
    dsimp only
    rcases how.make (h.pick i) with ⟨_ | _, _⟩
    · exact fun _ => rfl
    · rintro ⟨⟩
  | shareSampleSize size =>
    revert he
    simp only [carry, share, Run.value_bind, Run.final_bind]
    simp only [Run.value, Run.final, Run.within_apply, SharedConfig.setSampleSize]
    cases roundsOf size with
    | error _ => exact fun _ => rfl
    | ok _ => rintro ⟨⟩
  | current => cases he
  | shareSkip skip => cases he
  | shareRandom random => cases he
  | replace i => cases he
  | reset => cases he

/-- One operation keeps the edge rounds of all configurations. -/
theorem carry_sound (op : Operation) {h : Holdings} (hs : h.Sound) : (op.carry.final h).Sound := by
  have hshared : 2 ≤ h.shared.sampleSize := hs _ List.mem_cons_self
  cases op with
  | make how i =>
    have htwo : ∀ c, (how.make (h.pick i)).1 = .ok c → 2 ≤ c.sampleSize :=
      fun _ => how.two_le (hs.pick i)
    revert htwo
    unfold Run.final carry
    dsimp only
    rcases how.make (h.pick i) with ⟨_ | c, _⟩
    · exact fun _ => hs
    · exact fun htwo => hs.hold (htwo c rfl)
  | current => exact hs.hold hshared
  | shareSampleSize size =>
    simp only [carry, share, Run.final_bind]
    simp only [Run.value, Run.final, Run.within_apply, SharedConfig.setSampleSize]
    cases hr : roundsOf size with
    | error _ => exact hs
    | ok _ => exact hs.share (two_le_of_roundsOf hr)
  | shareSkip skip => exact hs.share hshared
  | shareRandom random => exact hs.share hshared
  | replace i => exact hs.share (hs.pick i)
  | reset => exact hs.share (by decide)

end Operation

/-! ### Runs of operations -/

/-- The holdings after some operations. -/
def Holdings.after (h : Holdings) (ops : List Operation) : Holdings :=
  (ops.mapM Operation.carry).final h

theorem Holdings.after_cons (h : Holdings) (op : Operation) (ops : List Operation) :
    h.after (op :: ops) = (op.carry.final h).after ops :=
  Run.final_mapM_cons ..

/-- No run of operations takes an edge round away. -/
theorem Holdings.after_sound {h : Holdings} (hs : h.Sound) (ops : List Operation) :
    (h.after ops).Sound := by
  induction ops generalizing h with
  | nil => exact hs
  | cons op ops ih =>
    rw [after_cons]
    exact ih (op.carry_sound hs)

/-! ### The edge rounds -/

namespace Law

/-- Both edge rounds of a check pass, one after the other, and the check starts with their calls. -/
def PassesEdges [Inspectable α] (law : Law σ α) (g : Generator σ α) (c : Config) (s : σ) : Prop :=
  ∃ first second s₁ s₂, law.Passes g 0 s first s₁ ∧ law.Passes g 1 s₁ second s₂ ∧
    law.calls g 0 first ++ law.calls g 1 second <+: (law.check g c).events s

/-- A round passes on values that are built from the number `x` alone. -/
def PassesOn (law : Law (World ω) α) (g : Continuous ω α) (x : Float) (w : World ω)
    (values : List α) (w' : World ω) : Prop :=
  values.length = law.arity ∧ ∃ s, Returns (g.build (List.replicate g.arity x)) w.host values s ∧
    law.predicate values (w.setHost s) = (.ok true, w')

variable {law : Law σ α} {g : Generator σ α} {c : Config} {s : σ}

/-- A law that holds with at least two rounds holds in both edge rounds. -/
theorem passesEdges [Inspectable α] (hc : c.skip = false) (htwo : 2 ≤ c.sampleSize)
    (hs : (law.check g c).value s = .success) : law.PassesEdges g c s := by
  obtain ⟨tuples, t, hlen, hp⟩ := (check_eq_success_iff hc).1 hs
  rw [← hlen] at htwo
  cases hp with
  | done => exact absurd htwo (by simp)
  | @next _ _ s₁ _ first _ hfirst hrest =>
    cases hrest with
    | done => exact absurd htwo (by simp)
    | @next _ _ s₂ _ second tuples hsecond hrest =>
      refine ⟨first, second, s₁, s₂, hfirst, hsecond,
        law.callsEach g 2 tuples ++ [.logged (.lawHeld law.name g.name c.sampleSize)], ?_⟩
      rw [Run.events, check_of_ends (.held hc hlen (.next hfirst (.next hsecond hrest)))]
      simp only [callsEach, List.append_assoc]

/-- A round at an edge passes on the one tuple of this edge, in all worlds. -/
theorem Passes.passesOn {law : Law (World ω) α} {g : Continuous ω α} {i : Nat} {x : Float}
    (hx : ∀ w : World ω, g.params i w = (List.replicate g.arity x, w)) {w w' : World ω}
    {values : List α} (hp : law.Passes g.toGenerator i w values w') :
    law.PassesOn g x w values w' := by
  obtain ⟨hlen, u, hret, hpred⟩ := hp
  obtain ⟨hbuilt, hu⟩ := Continuous.returns_build hx hret
  exact ⟨hlen, u.host, hbuilt, hu ▸ hpred⟩

end Law

/-- What is so of the configurations of a program. -/
structure Holdings.KeepsEdges (h : Holdings) : Prop where
  /-- All of them have both edge rounds. -/
  two_le : ∀ c ∈ h.all, 2 ≤ c.sampleSize
  /-- An operation that is refused leaves all of them as they are. -/
  unchanged : ∀ (op : Operation) e, op.carry.value h = .error e → op.carry.final h = h
  /-- A law that is checked with one of them and holds was found to hold in both edge rounds. -/
  passed : ∀ {σ α : Type} [Inspectable α], ∀ c ∈ h.all, c.skip = false →
    ∀ (law : Law σ α) (g : Generator σ α) (s : σ), (law.check g c).value s = .success →
      law.PassesEdges g c s
  /-- For a continuous generator, these are rounds on values built from zeros and from ones. -/
  built : ∀ {ω α : Type} [Inspectable α], ∀ c ∈ h.all, c.skip = false →
    ∀ (law : Law (World ω) α) (g : Continuous ω α) (w : World ω),
      (law.check g.toGenerator c).value w = .success →
        ∃ zeros ones w₁ w₂, law.PassesOn g 0.0 w zeros w₁ ∧ law.PassesOn g 1.0 w₁ ones w₂ ∧
          law.calls g.toGenerator 0 zeros ++ law.calls g.toGenerator 1 ones <+:
            (law.check g.toGenerator c).events w

/-- **The edge rounds cannot be configured away.**  Whatever a program does with configurations,
each that it has asks for both edge rounds, and what is refused changes none of them.  So a law that
holds where it is checked was found to hold in round 0 and in round 1. -/
theorem Holdings.after_keepsEdges (ops : List Operation) : (start.after ops).KeepsEdges := by
  have hs := after_sound start_sound ops
  refine ⟨hs, fun _ _ => Operation.final_carry_of_error, ?_, ?_⟩
  · intro σ α _ c hc hskip law g s hsuccess
    exact Law.passesEdges hskip (hs c hc) hsuccess
  · intro ω α _ c hc hskip law g w hsuccess
    obtain ⟨zeros, ones, w₁, w₂, hzeros, hones, hcalls⟩ := Law.passesEdges hskip (hs c hc) hsuccess
    exact ⟨zeros, ones, w₁, w₂, hzeros.passesOn g.params_zero, hones.passesOn g.params_one, hcalls⟩

end Lawbook

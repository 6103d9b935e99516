/-
Lawbook/Run.lean

Runs: computations that read and change the state of their host and report what they do.

Sampling and predicates belong to the host of the library: they may keep state of their own.  A
run over host states `σ` maps a state to a result, the state it leaves behind, and the list of the
events of type `ε` that happened on the way, in order.

* `bind_apply` : a run followed by another threads the state and lists the events of both;
* `instLawfulMonad` : runs obey the monad laws, so grouping does not matter.
-/

namespace Lawbook

/-- A computation over host states `σ` that reports events `ε`. -/
def Run (σ ε α : Type) : Type :=
  σ → α × σ × List ε

namespace Run

variable {σ τ ε α β : Type}

/-- What a run yields. -/
def value (m : Run σ ε α) (s : σ) : α := (m s).1

/-- The state a run leaves behind. -/
def final (m : Run σ ε α) (s : σ) : σ := (m s).2.1

/-- The events of a run. -/
def events (m : Run σ ε α) (s : σ) : List ε := (m s).2.2

/-- The run that does nothing. -/
@[inline] protected def pure (a : α) : Run σ ε α :=
  fun s => (a, s, [])

/-- One run after another. -/
@[inline] protected def bind (m : Run σ ε α) (f : α → Run σ ε β) : Run σ ε β := fun s =>
  match m s with
  | (a, s₁, es₁) =>
    match f a s₁ with
    | (b, s₂, es₂) => (b, s₂, es₁ ++ es₂)

/-- A run with another result. -/
@[inline] protected def map (f : α → β) (m : Run σ ε α) : Run σ ε β := fun s =>
  match m s with
  | (a, s', es) => (f a, s', es)

@[always_inline] instance : Monad (Run σ ε) where
  pure := Run.pure
  bind := Run.bind
  map := Run.map

@[simp] theorem pure_apply (a : α) (s : σ) : (pure a : Run σ ε α) s = (a, s, []) := rfl

/-- One run after another starts in the state that the first leaves behind, and its events come
after those of the first. -/
@[simp] theorem bind_apply (m : Run σ ε α) (f : α → Run σ ε β) (s : σ) :
    (m >>= f) s =
      ((f (m s).1 (m s).2.1).1, (f (m s).1 (m s).2.1).2.1,
        (m s).2.2 ++ (f (m s).1 (m s).2.1).2.2) := rfl

@[simp] theorem map_apply (f : α → β) (m : Run σ ε α) (s : σ) :
    (f <$> m) s = (f (m s).1, (m s).2.1, (m s).2.2) := rfl

theorem id_map (m : Run σ ε α) : id <$> m = m := rfl

/-- A run followed by one that only computes is the run with another result.  This is how `do`
blocks that end in `return` are read. -/
theorem bind_pure_comp (f : α → β) (m : Run σ ε α) : (m >>= fun a => pure (f a)) = f <$> m := by
  funext s
  simp

/-- The run that does nothing in front of another one adds neither events nor a change of state. -/
theorem pure_bind (a : α) (f : α → Run σ ε β) : pure a >>= f = f a := by
  funext s
  -- nothing is listed in front of the events of the second run
  show ((f a s).1, (f a s).2.1, [] ++ (f a s).2.2) = f a s
  simp

/-- Grouping does not matter: states are threaded and events are listed in the same order. -/
theorem bind_assoc {γ : Type} (m : Run σ ε α) (f : α → Run σ ε β) (g : β → Run σ ε γ) :
    m >>= f >>= g = m >>= fun a => f a >>= g := by
  funext s
  simp

instance instLawfulMonad : LawfulMonad (Run σ ε) :=
  LawfulMonad.mk' _ id_map pure_bind bind_assoc
    (by intros; rfl) (by intros; rfl) (by intros; rfl) bind_pure_comp

/-- Reports one event. -/
@[inline] def emit (e : ε) : Run σ ε Unit :=
  fun s => ((), s, [e])

/-- A step of the host, without events. -/
@[inline] def host (m : StateM σ α) : Run σ ε α := fun s =>
  match m s with
  | (a, s') => (a, s', [])

/-- An event that is reported leaves the state as it is. -/
@[simp] theorem emit_apply (e : ε) (s : σ) : (emit e : Run σ ε Unit) s = ((), s, [e]) := rfl

/-- What the host does by itself shows in its state, but not in the events. -/
@[simp] theorem host_apply (m : StateM σ α) (s : σ) :
    (host m : Run σ ε α) s = ((m s).1, (m s).2, []) := rfl

/-! ### Value, final state and events -/

section

variable (a : α) (m : Run σ ε α) (f : α → Run σ ε β) (s : σ)

@[simp] theorem value_pure : (pure a : Run σ ε α).value s = a := rfl

@[simp] theorem final_pure : (pure a : Run σ ε α).final s = s := rfl

@[simp] theorem events_pure : (pure a : Run σ ε α).events s = [] := rfl

/-- The value of a sequence is that of its last part, in the state and for the value that the first
part yields. -/
@[simp] theorem value_bind : (m >>= f).value s = (f (m.value s)).value (m.final s) := rfl

/-- The state is handed on from part to part. -/
@[simp] theorem final_bind : (m >>= f).final s = (f (m.value s)).final (m.final s) := rfl

/-- The events of a sequence are those of its parts, in order. -/
@[simp] theorem events_bind :
    (m >>= f).events s = m.events s ++ (f (m.value s)).events (m.final s) := rfl

/-- Another result changes nothing but the result. -/
@[simp] theorem value_map (f : α → β) : (f <$> m).value s = f (m.value s) := rfl

@[simp] theorem final_map (f : α → β) : (f <$> m).final s = m.final s := rfl

@[simp] theorem events_map (f : α → β) : (f <$> m).events s = m.events s := rfl

end

/-! ### Series of runs -/

section

universe u

variable {ι : Type u} (f : ι → Run σ ε α) (x : ι) (xs : List ι) (s : σ)

/-- A series of runs yields one value for each member, and each run starts in the state that the one
before it leaves behind. -/
theorem value_mapM_cons :
    ((x :: xs).mapM f).value s = (f x).value s :: (xs.mapM f).value ((f x).final s) := by
  rw [List.mapM_cons]
  rfl

/-- The state that a series leaves behind is that of its last run. -/
theorem final_mapM_cons : ((x :: xs).mapM f).final s = (xs.mapM f).final ((f x).final s) := by
  rw [List.mapM_cons]
  rfl

/-- The events of a series are those of its runs, in order. -/
theorem events_mapM_cons :
    ((x :: xs).mapM f).events s = (f x).events s ++ (xs.mapM f).events ((f x).final s) := by
  rw [List.mapM_cons]
  simp

end

/-! ### Runs over a part of the state -/

/-- A run over a part of a larger state. -/
@[inline] def within (get : τ → σ) (set : σ → τ → τ) (m : Run σ ε α) : Run τ ε α := fun t =>
  match m (get t) with
  | (a, s, es) => (a, set s t, es)

/-- A run over a part of the state changes this part only, with the same value and the same events.
-/
@[simp] theorem within_apply (get : τ → σ) (set : σ → τ → τ) (m : Run σ ε α) (t : τ) :
    within get set m t = ((m (get t)).1, set (m (get t)).2.1 t, (m (get t)).2.2) := rfl

end Run

end Lawbook

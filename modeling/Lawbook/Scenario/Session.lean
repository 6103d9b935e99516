/-
Lawbook/Scenario/Session.lean

Sessions: a registry, generators and declarations that are used step by step.

A session has one world, one configuration and one table of declarations, and for each subject a
scene: its registry and the handles of its generators.  A handle counts how often it was asked for
a value; a copy of a generator has the identity of the generator and a count of its own.

* `Session.step` : what a step answers, the session after it, and what there is to log;
* `Session.check` : a constraint checked again and again on the values of one generator.
-/
import Lawbook.Generator.Discrete
import Lawbook.Instance
import Lawbook.Law.Families
import Lawbook.Scenario.Script

namespace Lawbook.Scenario

/-! ### Generators -/

/-- A generator of sample values. -/
inductive Sampler where
  | discrete (g : Discrete Value)
  | continuous (g : Continuous Host Value)

namespace Sampler

/-- The identity of a generator. -/
def id : Sampler → GeneratorId
  | discrete g => g.id
  | continuous g => g.id

/-- The name of a generator. -/
def name : Sampler → String
  | discrete g => g.name
  | continuous g => g.name

/-- The number of places of a continuous generator. -/
def arity? : Sampler → Option Nat
  | discrete _ => none
  | continuous g => some g.arity

/-- As a generator. -/
def toGenerator : Sampler → Generator Stage Value
  | discrete g => g.toGenerator
  | continuous g => g.toGenerator

/-- A generator under inspection. -/
def inspect (label : GeneratorId → String) : Sampler → String
  | discrete g => g.inspect label
  | continuous g => g.inspect label

end Sampler

/-- A generator, and how often it was asked for a value through this handle. -/
structure Handle where
  sampler : Sampler
  gets : Nat

instance : Inhabited Handle := ⟨⟨.discrete ⟨⟨0⟩, "", [], .constant 0.0⟩, 0⟩⟩

/-! ### Sessions -/

/-- A subject of scenarios, by its name. -/
abbrev Actor : Type := Subject String Host Value

/-- What belongs to one subject. -/
structure Scene where
  registry : Registry Stage Value
  handles : Array Handle

/-- A scene in which nothing happened. -/
def Scene.empty : Scene := ⟨.empty, #[]⟩

/-- A session. -/
structure Session where
  stage : Stage
  config : Config
  table : InstanceTable String
  scenes : List (String × Scene)

namespace Session

/-- A session at its beginning. -/
def start (stage : Stage) (config : Config) : Session :=
  ⟨stage, config, .empty, []⟩

/-- The scene of a subject among scenes. -/
def sceneIn (key : String) : List (String × Scene) → Scene
  | [] => .empty
  | (other, scene) :: rest => if other = key then scene else sceneIn key rest

/-- Scenes with the scene of a subject replaced. -/
def replaceScene (key : String) (scene : Scene) : List (String × Scene) → List (String × Scene)
  | [] => [(key, scene)]
  | (other, old) :: rest =>
    if other = key then (other, scene) :: rest else (other, old) :: replaceScene key scene rest

/-- The scene of a subject. -/
def scene (s : Session) (a : Actor) : Scene :=
  sceneIn a.key s.scenes

/-- The session with the scene of a subject replaced. -/
def setScene (s : Session) (a : Actor) (scene : Scene) : Session :=
  { s with scenes := replaceScene a.key scene s.scenes }

/-- How often each law was called. -/
def calls (s : Session) : List (String × Nat) :=
  s.stage.host.calls

end Session

/-! ### Steps and answers -/

/-- One call on a draft. -/
abbrev Clause := Draft.Clause Stage Value

/-- A step of a session.  Generators are referred to by the places of their handles. -/
inductive Step where
  | addGenerator (sampler : Sampler)
  | copyGenerator (place : Nat)
  | get (place round : Nat)
  | params (place round : Nat)
  | describeGenerator (place : Nat)
  | register (clauses : List Clause)
  | validate (id : ClassId) (place : Nat)
  | find (id : ClassId)
  | lookUp (id : ClassId)
  | nameOf (id : ClassId)
  | listClasses
  | ancestors (id : ClassId)
  | isSubclass (id ancestor : ClassId)
  | compare (id other : ClassId)
  | describeLedger
  | isRecorded (place : Nat) (id : ClassId)
  | verdictOf (place : Nat) (id : ClassId)
  | inspect
  | configure (config : Except ConfigError Config)
  | declare (id : ClassId)
  | membership
  | isInstance (id : ClassId)
  | countSubjects
  | validateTable (fresh : GeneratorId)
  | enroll (id : ClassId) (place : Nat)
  | declareIn (m : Membership) (id : ClassId)
  | isInstanceIn (m : Membership) (id : ClassId)
  | validateAll (m : Membership) (fresh : GeneratorId)

/-- A class as it is described. -/
structure ClassView where
  id : ClassId
  name : String
  parents : List ClassId
  laws : List String
  inspection : String

/-- The description of a class. -/
def ClassView.of (id : ClassId) (cls : Class Stage Value) : ClassView :=
  ⟨id, cls.name, cls.parents, cls.laws.lawNames, cls.inspect id⟩

/-- A generator as it is described. -/
structure GeneratorView where
  name : String
  arity : Option Nat
  /-- The place of the first handle with the same identity. -/
  sameAs : Nat
  gets : Nat
  inspection : String

/-- What a step answers. -/
inductive Answer where
  | done
  | place (n : Nat)
  | flag (b : Bool)
  | text (s : String)
  | numbers (xs : List Float)
  | texts (xs : List String)
  | ids (ids : List ClassId)
  | sampled (r : Except GeneratorError Value)
  | generator (view : GeneratorView)
  | registered (r : Except ClassError ClassId)
  | verdict (v : Verdict) (gets : Option Nat) (calls : List (String × Nat))
  | found (r : Except ClassError ClassView)
  | lookedUp (view : Option ClassView)
  | classes (names : List String)
  | compared (same : Option Bool)
  | ledger (count : Nat) (classesFor : List (List ClassId))
  | recalled (v : Option Verdict)
  | refused (e : ConfigError)
  | membership (m : Option Membership)
  | size (n : Nat)
  | enrolled (r : Except InstanceError Unit) (gets : Option Nat) (calls : List (String × Nat))

/-! ### Views -/

namespace Scene

/-- The first handle with the identity of another one. -/
def firstWith (scene : Scene) (id : GeneratorId) : Nat :=
  (scene.handles.toList.findIdx? fun h => h.sampler.id = id).getD scene.handles.size

/-- The label of an identity: the place of its first handle. -/
def label (scene : Scene) (id : GeneratorId) : String :=
  s!"<gen {scene.firstWith id}>"

/-- The description of the class of a number. -/
def view? (scene : Scene) (id : ClassId) : Option ClassView :=
  (scene.registry.hierarchy.class? id).map (ClassView.of id)

/-- The description of a handle. -/
def describe (scene : Scene) (h : Handle) : GeneratorView :=
  ⟨h.sampler.name, h.sampler.arity?, scene.firstWith h.sampler.id, h.gets,
    h.sampler.inspect fun _ => "<id>"⟩

/-- Whether two numbers are those of the same class, if there are such classes. -/
def compare (scene : Scene) (id other : ClassId) : Option Bool :=
  let h := scene.registry.hierarchy
  if (h.class? id).isSome && (h.class? other).isSome then some (id = other) else none

/-- The scene with more calls counted at a handle. -/
def countGets (scene : Scene) (place n : Nat) : Scene :=
  { scene with handles := scene.handles.modify place fun h => { h with gets := h.gets + n } }

/-- The count of a handle. -/
def gets (scene : Scene) (place : Nat) : Nat :=
  ((scene.handles[place]?).map Handle.gets).getD 0

end Scene

/-! ### Carrying steps out -/

namespace Session

/-- An answer, the session after it, and what there is to log.  A reference to a handle that is
not there has no answer. -/
abbrev Outcome : Type := Option (Answer × Session × List Notice)

/-- Carries out a run over the world of a session. -/
def carry {β : Type} (s : Session) (m : Run Stage (Event Value) β) :
    β × Session × List (Event Value) :=
  match m s.stage with
  | (b, stage, es) => (b, { s with stage }, es)

/-- An answer that changes nothing. -/
def reply (s : Session) (a : Answer) : Outcome :=
  some (a, s, [])

/-- Adds a handle. -/
def addHandle (s : Session) (a : Actor) (h : Handle) : Outcome :=
  let scene := s.scene a
  some (.place scene.handles.size,
    s.setScene a { scene with handles := scene.handles.push h }, [])

/-- Asks a generator for the value of a round. -/
def get (s : Session) (a : Actor) (place round : Nat) : Outcome := do
  let h ← (s.scene a).handles[place]?
  let (r, s, es) := s.carry (h.sampler.toGenerator.drawAt round)
  let scene := (s.scene a).countGets place (Event.drawCount es)
  return (.sampled r, s.setScene a scene, Event.notices es)

/-- The numbers or the values that a generator builds or chooses from. -/
def params (s : Session) (a : Actor) (place round : Nat) : Outcome := do
  let h ← (s.scene a).handles[place]?
  match h.sampler with
  | .discrete g => s.reply (.texts (g.values.map Value.inspect))
  | .continuous g =>
    let (xs, stage) := g.params round s.stage
    return (.numbers xs, { s with stage }, [])

/-- Registers a class. -/
def register (s : Session) (a : Actor) (clauses : List Clause) : Outcome :=
  let scene := s.scene a
  let ((r, registry), s, es) := s.carry (scene.registry.register (.written clauses))
  some (.registered r, s.setScene a { scene with registry }, Event.notices es)

/-- Validates a class against a generator. -/
def validate (s : Session) (a : Actor) (id : ClassId) (place : Nat) : Outcome := do
  let scene := s.scene a
  let h ← scene.handles[place]?
  let ((v, registry), s, es) :=
    s.carry (scene.registry.validate id h.sampler.toGenerator s.config)
  let scene := { scene with registry }.countGets place (Event.drawCount es)
  let s := s.setScene a scene
  return (.verdict v (some (scene.gets place)) s.calls, s, Event.notices es)

/-- Validates a class against a generator and declares the subject an instance of it. -/
def enroll (s : Session) (a : Actor) (id : ClassId) (place : Nat) : Outcome := do
  let scene := s.scene a
  let h ← scene.handles[place]?
  let ((r, table, registry), s, es) :=
    s.carry (s.table.enroll scene.registry a.key id h.sampler.toGenerator s.config)
  let scene := { scene with registry }.countGets place (Event.drawCount es)
  let s := { s with table }.setScene a scene
  return (.enrolled r (some (scene.gets place)) s.calls, s, Event.notices es)

/-- Validates what is declared for a subject. -/
def validateTable (s : Session) (a : Actor) (fresh : GeneratorId) : Outcome :=
  let h := (s.scene a).registry.hierarchy
  let ((r, table), s, es) := s.carry (s.table.validate h a fresh s.config)
  let s := { s with table }
  some (.enrolled r none s.calls, s, Event.notices es)

/-- Validates declared classes directly. -/
def validateAll (s : Session) (a : Actor) (m : Membership) (fresh : GeneratorId) : Outcome :=
  let h := (s.scene a).registry.hierarchy
  let (v, s, es) := s.carry (Lawbook.validateAll h a fresh m s.config)
  some (.verdict v none s.calls, s, Event.notices es)

/-- Carries out a step for a subject. -/
def step (s : Session) (a : Actor) : Step → Outcome
  | .addGenerator sampler => s.addHandle a ⟨sampler, 0⟩
  | .copyGenerator place => do s.addHandle a ⟨(← (s.scene a).handles[place]?).sampler, 0⟩
  | .get place round => s.get a place round
  | .params place round => s.params a place round
  | .describeGenerator place => do
    s.reply (.generator ((s.scene a).describe (← (s.scene a).handles[place]?)))
  | .register clauses => s.register a clauses
  | .validate id place => s.validate a id place
  | .find id => s.reply (.found do
      return .of id (← (s.scene a).registry.hierarchy.find id))
  | .lookUp id => s.reply (.lookedUp ((s.scene a).view? id))
  | .nameOf id => s.reply (.text ((s.scene a).registry.hierarchy.nameOf id))
  | .listClasses =>
    s.reply (.classes ((s.scene a).registry.hierarchy.classes.toList.map Class.name))
  | .ancestors id => s.reply (.ids ((s.scene a).registry.hierarchy.ancestors id))
  | .isSubclass id ancestor =>
    s.reply (.flag ((s.scene a).registry.hierarchy.isSubclass id ancestor))
  | .compare id other => s.reply (.compared ((s.scene a).compare id other))
  | .describeLedger =>
    let ledger := (s.scene a).registry.ledger
    s.reply (.ledger ledger.count
      ((s.scene a).handles.toList.map fun h => ledger.classesFor h.sampler.id))
  | .isRecorded place id => do
    let h ← (s.scene a).handles[place]?
    s.reply (.flag ((s.scene a).registry.ledger.contains h.sampler.id id))
  | .verdictOf place id => do
    let h ← (s.scene a).handles[place]?
    s.reply (.recalled ((s.scene a).registry.ledger.verdict? h.sampler.id id))
  | .inspect => s.reply (.text ((s.scene a).registry.inspect (s.scene a).label))
  | .configure (.ok config) => some (.done, { s with config }, [])
  | .configure (.error e) => s.reply (.refused e)
  | .declare id =>
    let s := { s with table := s.table.declare a.key id }
    s.reply (.membership (s.table.membership? a.key))
  | .membership => s.reply (.membership (s.table.membership? a.key))
  | .isInstance id =>
    s.reply (.flag (s.table.isInstance (s.scene a).registry.hierarchy a.key id))
  | .countSubjects => s.reply (.size s.table.size)
  | .validateTable fresh => s.validateTable a fresh
  | .enroll id place => s.enroll a id place
  | .declareIn m id => s.reply (.membership (some (m.declare id)))
  | .isInstanceIn m id =>
    s.reply (.flag (m.isInstanceOf (s.scene a).registry.hierarchy id))
  | .validateAll m fresh => s.validateAll a m fresh

/-- Carries out steps for their subjects, with the answers and what there is to log. -/
def run (s : Session) : List (Actor × Step) → Option (List Answer × List Notice)
  | [] => some ([], [])
  | (a, step) :: steps => do
    let (answer, s, notices) ← s.step a step
    let (answers, more) ← s.run steps
    return (answer :: answers, notices ++ more)

/-! ### Repeated checks -/

/-- The verdict of a check, with the calls of the generator and of the laws so far. -/
structure Checked where
  verdict : Verdict
  gets : Nat
  calls : List (String × Nat)

/-- Checks a constraint the given number of times. -/
def check (a : Constraint Stage Value) (g : Generator Stage Value) (c : Config) (gets : Nat)
    (stage : Stage) : Nat → List Checked × List Notice
  | 0 => ([], [])
  | n + 1 =>
    match a.check g c stage with
    | (verdict, stage, es) =>
      let gets := gets + Event.drawCount es
      let (more, notices) := check a g c gets stage n
      (⟨verdict, gets, stage.host.calls⟩ :: more, Event.notices es ++ notices)

end Session

end Lawbook.Scenario

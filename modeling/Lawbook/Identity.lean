/-
Lawbook/Identity.lean

Identities: how classes and generators are referred to.

A class is known by its place in the registry that holds it.  A generator is known by an
identifier of 128 bits that its copies share; identifiers are handed out by the host, which keeps
those of different generators apart.
-/

namespace Lawbook

/-- The place of a class in its registry. -/
@[ext]
structure ClassId where
  index : Nat
deriving DecidableEq, Repr, Inhabited

namespace ClassId

/-- The short form, for messages. -/
def short (id : ClassId) : String :=
  s!"#{id.index}"

/-- The form under inspection. -/
def inspect (id : ClassId) : String :=
  s!"ClassId({id.index})"

end ClassId

/-- The identity of a generator. -/
structure GeneratorId where
  bits : BitVec 128
deriving DecidableEq, Repr, Inhabited

/-- The form of a generator's identity under inspection, where `label` writes the identifier. -/
def GeneratorId.inspect (label : GeneratorId → String) (id : GeneratorId) : String :=
  s!"GeneratorId({label id})"

end Lawbook

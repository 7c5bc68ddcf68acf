import Interposer.Substitution.Basic

/-!
# The tools that are stood in for

There are two roles: in front of a compiler and in front of a linker. Each role has its own
substitution, whose three parts a build may set to something else.
-/

namespace Interposer

/-- The setting a build has made, or else the default. -/
def setting (override : Option String) (fallback : String) : String := override.getD fallback

/-- The parts of a substitution that a build has set. -/
structure Overrides where
  program : Option String := none
  before : Option String := none
  after : Option String := none
  deriving DecidableEq, Repr

/-- The tool that an interposed program stands in for. -/
inductive Role where
  /-- A compiler, whose linker options have to follow all other arguments. -/
  | compiler
  /-- A linker, whose flags may all come first. -/
  | linker
  deriving DecidableEq, Repr

namespace Role

/-- The substitution of a role where the build has set nothing. -/
def standard : Role → Substitution
  | compiler => ⟨"cl_real.exe", "/Brepro", "/link /emittoolversioninfo:no"⟩
  | linker => ⟨"link_real.exe", "/Brepro", ""⟩

/-- The substitution of a role, with what the build has set in place of the defaults. -/
def substitution (role : Role) (overrides : Overrides) : Substitution where
  program := setting overrides.program role.standard.program
  before := setting overrides.before role.standard.before
  after := setting overrides.after role.standard.after

end Role

end Interposer

import DeliveryPipeline.Factory

/-!
# Declared handlers

The built-in factory makes handlers whose capabilities are declared by the parameters of their
descriptor: comma lists of modes and roles, and a name.
-/
namespace DeliveryPipeline

def declaredType : String := "handler"

namespace Declared

def modes (d : Descriptor) : Except Error (List Strategy) :=
  (Text.commaList ((d.parameter? "modes").getD "")).mapM Strategy.parse

def roles (d : Descriptor) : Except Error (List Role) :=
  (Text.commaList ((d.parameter? "roles").getD "")).mapM Role.parse

def capabilities (d : Descriptor) : Except Error Capabilities := do
  let modes ← modes d
  let roles ← roles d
  return roles.foldl Capabilities.addRole (modes.foldl Capabilities.addStrategy .empty)

/-- The name parameter, else the resource, else a name made from the selector. -/
def name (d : Descriptor) : String :=
  ((d.parameter? "name").or d.resource).getD (d.selector ++ ":" ++ declaredType)

def create : Constructor := fun fresh d =>
  match capabilities d with
  | .ok c => .ok { handler := ⟨fresh, name d, c⟩ }
  | .error e => .error (.invalid e.message)

def factory : Factory := ⟨declaredType, create⟩

end Declared

/-- The registry that holds the built-in factory alone. -/
def FactoryRegistry.builtin : FactoryRegistry :=
  FactoryRegistry.register Dictionary.empty declaredType Declared.factory

end DeliveryPipeline

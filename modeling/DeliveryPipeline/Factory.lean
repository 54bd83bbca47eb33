import DeliveryPipeline.Classification
import DeliveryPipeline.Lifecycle

/-!
# Handler factories

A factory turns a descriptor into a handler or says why not. Factories are registered under resource
types, whatever their ASCII case and the blanks around them. Native handlers are made by
constructors, which are registered under native paths.
-/
namespace DeliveryPipeline

/-- A handler as its factory hands it over, with what it does on creation. -/
structure Creation where
  handler : Handler
  /-- What a self-expanding handler yields. -/
  yields : List Descriptor := []
  /-- What a self-registering handler does to the classification. -/
  register : Classification → Classification := id
  /-- The handler as a listener of the build that makes it, if it listens. A handler that is handed
  in, or that another one registers, is not asked for it. -/
  listener : Option Listener := none

inductive FactoryFailure where
  /-- The descriptor is invalid, which ends the build. -/
  | invalid (message : String)
  /-- The handler could not be made, so the descriptor is skipped. -/
  | failed (message : String)
  /-- The factory broke down, so the descriptor is skipped. -/
  | panicked (payload : Option String)
deriving DecidableEq

namespace FactoryFailure

def panicMessage (payload : Option String) : String :=
  payload.getD "unknown panic payload"

def message : FactoryFailure → String
  | invalid m => "invalid configuration: " ++ m
  | failed m => "creation failed: " ++ m
  | panicked payload => panicMessage payload

end FactoryFailure

/-- Makes a handler from a descriptor. The handler takes the given identity unless it is shared. -/
abbrev Constructor := HandlerId → Descriptor → Except FactoryFailure Creation

structure Factory where
  name : String
  create : Constructor

abbrev FactoryRegistry := Dictionary Factory

namespace FactoryRegistry

/-- The form of a resource type under which its factory is kept. -/
def typeKey (resourceType : String) : String :=
  (Text.trim resourceType).toLower

/-- Register a factory, in place of an earlier one of the same type. -/
def register (r : FactoryRegistry) (resourceType : String) (f : Factory) : FactoryRegistry :=
  r.set (typeKey resourceType) f

def factoryFor? (r : FactoryRegistry) (resourceType : String) : Option Factory :=
  r.get? (typeKey resourceType)

def describe (r : FactoryRegistry) : String :=
  Text.described "FactoryRegistry" [("types", Text.bracketed (r.keys.map Text.quoted))]

end FactoryRegistry

def nativeType : String := "native"

abbrev NativeHandlers := Dictionary Constructor

namespace NativeHandlers

/-- Register a constructor, in place of an earlier one of the same path. -/
def register (h : NativeHandlers) (path : String) (make : Constructor) : NativeHandlers :=
  h.set (Text.trim path) make

/-- The factory that follows the path in the resource of a descriptor. -/
def factory (h : NativeHandlers) : Factory where
  name := nativeType
  create fresh d :=
    let path := Text.trim (d.resource.getD "")
    match h.get? path with
    | some make => make fresh d
    | none => .error (.failed ("no native handler registered for '" ++ path ++ "'"))

end NativeHandlers

end DeliveryPipeline

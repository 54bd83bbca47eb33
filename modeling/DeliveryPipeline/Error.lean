import DeliveryPipeline.Descriptor
import DeliveryPipeline.Role
import DeliveryPipeline.Schema.Dtd
import DeliveryPipeline.Strategy
import DeliveryPipeline.Text.Quoted
import DeliveryPipeline.Toml.Reader

/-!
# Errors

Every error ends a build or a command. It belongs to one of seven kinds and has a cause, from which
its wording follows. A listener may state an error of any kind in words of its own.
-/
namespace DeliveryPipeline

inductive Misconfiguration where
  | unknownCategory (raw : String)
  | unknownRole (raw : String)
  | unknownStrategy (raw : String)
  | schemaNeeded (selector profile : String)
  | nativeFactoryMissing (resource : Descriptor)
  | tooManyExpansions (limit : Nat) (last : Descriptor)
  | invalidSchema (source : Descriptor) (fault : Dtd.Fault)
  | unreadableSettings (path : String) (fault : Toml.Fault)
  | homeUnknown
  | stated (message : String)
deriving DecidableEq

def Misconfiguration.message : Misconfiguration → String
  | unknownCategory raw =>
    "unsupported macro category '" ++ raw ++ "' (expected one of: " ++
      ", ".intercalate (Category.all.map Category.name) ++ ")"
  | unknownRole raw => "unknown handler role '" ++ Text.trim raw ++ "'"
  | unknownStrategy raw =>
    "invalid '" ++ strategyParameter ++ "' value '" ++ raw ++ "'; must be 'stream' or 'tree'"
  | schemaNeeded selector profile =>
    "selector '" ++ selector ++ "' needs a schema, but none is available for profile '" ++
      profile ++ "'"
  | nativeFactoryMissing resource =>
    "resource [" ++ resource.label ++
      "] names a native handler but no native factory is registered"
  | tooManyExpansions limit last =>
    "resource expansion exceeded " ++ toString limit ++ " descriptors (last expanded by " ++
      last.label ++ ")"
  | invalidSchema source fault =>
    "invalid schema in [" ++ source.label ++ "]: parse error: " ++ fault.message
  | unreadableSettings path fault => "failed to parse " ++ path ++ ": " ++ fault.message
  | homeUnknown => "could not determine home directory"
  | stated message => message

inductive ParseFault where
  | schema (fault : Dtd.Fault)
  | resources (fault : Toml.Fault)
  | resourceFile (path : String) (fault : Toml.Fault)
  | stated (message : String)
deriving DecidableEq

def ParseFault.message : ParseFault → String
  | schema fault => fault.message
  | resources fault => "invalid resource file: " ++ fault.message
  | resourceFile path fault => path ++ ": parse error: invalid resource file: " ++ fault.message
  | stated message => message

inductive Ambiguity where
  /-- Of so many handlers, these numbers support streams and trees, as the report shows. -/
  | noCommonStrategy (stream tree total : Nat) (report : String)
  | stated (message : String)
deriving DecidableEq

def Ambiguity.message : Ambiguity → String
  | noCommonStrategy stream tree total report =>
    "every handler must support the stream and/or tree strategy (" ++ toString stream ++ " of " ++
      toString total ++ " support stream, " ++ toString tree ++ " of " ++ toString total ++
      " support tree):\n" ++ report
  | stated message => message

inductive OverrideFault where
  | unsupported (requested only : Strategy)
  | stated (message : String)
deriving DecidableEq

def OverrideFault.message : OverrideFault → String
  | unsupported requested only =>
    "'" ++ requested.name ++ "' cannot be used with this set of handlers; '" ++ only.name ++
      "' is the only strategy they all support"
  | stated message => message

inductive Error where
  | configuration (cause : Misconfiguration)
  | ambiguousConfiguration (cause : Ambiguity)
  | invalidOverride (cause : OverrideFault)
  | factory (resource message : String)
  | listener (message : String)
  | parse (fault : ParseFault)
  | io (path cause : String)
deriving DecidableEq

namespace Error

def message : Error → String
  | configuration cause => "configuration error: " ++ cause.message
  | ambiguousConfiguration cause => "ambiguous resource configuration: " ++ cause.message
  | invalidOverride cause => "invalid strategy override: " ++ cause.message
  | factory resource message => "factory rejected resource [" ++ resource ++ "]: " ++ message
  | listener message => "lifecycle listener error: " ++ message
  | parse fault => "parse error: " ++ fault.message
  | io path cause => "I/O error at " ++ Text.quoted path ++ ": " ++ cause

/-- The wordings of an error and of what lies behind it. -/
def chain (e : Error) : List String :=
  match e with
  | io _ cause => [e.message, cause]
  | _ => [e.message]

/-- Whether the resource configuration itself is at fault. -/
def isConfiguration : Error → Bool
  | configuration _ | ambiguousConfiguration _ | invalidOverride _ | factory _ _ => true
  | listener _ | parse _ | io _ _ => false

/-- A sequence of two steps succeeds when both do. -/
theorem bind_eq_ok_iff {α β : Type} {x : Except Error α} {f : α → Except Error β} {b : β} :
    x >>= f = .ok b ↔ ∃ a, x = .ok a ∧ f a = .ok b := by
  cases x <;> simp [bind, Except.bind]

theorem map_eq_ok_iff {α β : Type} {x : Except Error α} {f : α → β} {b : β} :
    x.map f = .ok b ↔ ∃ a, x = .ok a ∧ f a = b := by
  cases x <;> simp [Except.map]

theorem isSome_toOption_iff {α : Type} {x : Except Error α} :
    x.toOption.isSome = true ↔ ∃ a, x = .ok a := by
  cases x <;> simp [Except.toOption]

theorem map_toOption_eq_some_iff {α β : Type} {x : Except Error α} {f : α → β} {b : β} :
    x.toOption.map f = some b ↔ ∃ a, x = .ok a ∧ f a = b := by
  cases x <;> simp [Except.toOption]

/-- Two results that look alike are the same error, or values that look alike. -/
theorem map_eq_map_iff {α β γ : Type} {x : Except Error α} {y : Except Error β} {f : α → γ}
    {g : β → γ} : x.map f = y.map g ↔
      (∃ e, x = .error e ∧ y = .error e) ∨ ∃ a b, x = .ok a ∧ y = .ok b ∧ f a = g b := by
  cases x <;> cases y <;> simp [Except.map, eq_comm]

/-- Steps that go on alike from first results that look alike end in results that look alike. -/
theorem map_bind_eq_map_bind {α α' β β' γ δ : Type} {x : Except Error α} {x' : Except Error α'}
    {k : α → Except Error β} {k' : α' → Except Error β'} {f : α → γ} {f' : α' → γ} {g : β → δ}
    {g' : β' → δ} (hfirst : x.map f = x'.map f')
    (hrest : ∀ a a', f a = f' a' → (k a).map g = (k' a').map g') :
    (x >>= k).map g = (x' >>= k').map g' := by
  rcases map_eq_map_iff.1 hfirst with ⟨e, hx, hx'⟩ | ⟨a, a', hx, hx', hsame⟩
  · rw [hx, hx']
    rfl
  · rw [hx, hx']
    exact hrest a a' hsame

end Error

def Category.parse (raw : String) : Except Error Category :=
  match Category.parse? raw with
  | some c => .ok c
  | none => .error (.configuration (.unknownCategory raw))

def Role.parse (raw : String) : Except Error Role :=
  match Role.parse? raw with
  | some r => .ok r
  | none => .error (.configuration (.unknownRole raw))

def Strategy.parse (raw : String) : Except Error Strategy :=
  match Strategy.parse? raw with
  | some s => .ok s
  | none => .error (.configuration (.unknownStrategy raw))

def Dtd.read (text : String) : Except Error Dtd :=
  (Dtd.parse text).mapError fun fault => .parse (.schema fault)

end DeliveryPipeline

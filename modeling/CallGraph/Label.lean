/-!
# Labels

The kinds of classes and of calls, and the labels they are written with. A label outside the known
ones is a kind of its own, so no label is lost.

* `ClassKind`, `CallKind`: the kinds, with `ofLabel` and `label` between them and their texts.
* `ClassKind.label_ofLabel`, `CallKind.label_ofLabel`: a kind read from a label is written with it.
-/

namespace CallGraph

/-! ### Classes -/

/-- What a class is in its service. -/
inductive ClassKind where
  | controller
  | service
  | repository
  | component
  | configuration
  | interface
  | plainClass
  | dubboService
  | unknown
  | other (label : String)
  deriving DecidableEq, Repr, Hashable

/-- A class is of unknown kind unless its kind is given. -/
instance : Inhabited ClassKind := ⟨.unknown⟩

/-- The kind a label stands for. -/
def ClassKind.ofLabel : String → ClassKind
  | "CONTROLLER" => .controller
  | "SERVICE" => .service
  | "REPOSITORY" => .repository
  | "COMPONENT" => .component
  | "CONFIGURATION" => .configuration
  | "INTERFACE" => .interface
  | "PLAIN_CLASS" => .plainClass
  | "DUBBO_SERVICE" => .dubboService
  | "UNKNOWN" => .unknown
  | label => .other label

/-- The label of a kind. -/
def ClassKind.label : ClassKind → String
  | .controller => "CONTROLLER"
  | .service => "SERVICE"
  | .repository => "REPOSITORY"
  | .component => "COMPONENT"
  | .configuration => "CONFIGURATION"
  | .interface => "INTERFACE"
  | .plainClass => "PLAIN_CLASS"
  | .dubboService => "DUBBO_SERVICE"
  | .unknown => "UNKNOWN"
  | .other label => label

/-- No label is lost. -/
theorem ClassKind.label_ofLabel (label : String) : (ofLabel label).label = label := by
  unfold ofLabel
  split <;> rfl

/-! ### Calls -/

/-- How one method reaches another. -/
inductive CallKind where
  | internal
  | remote
  | http
  | static
  | constructor
  | unknown
  | other (label : String)
  deriving DecidableEq, Repr, Hashable

/-- A call is of unknown kind unless its kind is given. -/
instance : Inhabited CallKind := ⟨.unknown⟩

/-- The kind a label stands for. -/
def CallKind.ofLabel : String → CallKind
  | "INTERNAL_METHOD_CALL" => .internal
  | "RPC_METHOD_CALL" => .remote
  | "HTTP_METHOD_CALL" => .http
  | "STATIC_METHOD_CALL" => .static
  | "CONSTRUCTOR_CALL" => .constructor
  | "UNKNOWN" => .unknown
  | label => .other label

/-- The label of a kind. -/
def CallKind.label : CallKind → String
  | .internal => "INTERNAL_METHOD_CALL"
  | .remote => "RPC_METHOD_CALL"
  | .http => "HTTP_METHOD_CALL"
  | .static => "STATIC_METHOD_CALL"
  | .constructor => "CONSTRUCTOR_CALL"
  | .unknown => "UNKNOWN"
  | .other label => label

/-- No label is lost. -/
theorem CallKind.label_ofLabel (label : String) : (ofLabel label).label = label := by
  unfold ofLabel
  split <;> rfl

/-! ### Distinct values -/

/-- The number of different values in a list. -/
def distinctCount {α : Type} [DecidableEq α] (values : List α) : Nat := values.eraseDups.length

end CallGraph

-- The standard catalog.
import ComponentLint.Check.Body
import ComponentLint.Check.Declaration
import ComponentLint.Check.Identity
import ComponentLint.Check.Isolation
import ComponentLint.Check.Lifetime
import ComponentLint.Rule.Catalog

namespace ComponentLint

/-- The id of the rule about suppressions that silence nothing. -/
def unusedSuppression : String := "unused-suppression"

/-- The standard rules. -/
def standardRules : List Descriptor :=
  [{ id := "body-size-limit"
     category := .performance
     severity := .warning
     description := "A component's rendering body must stay within a line limit."
     kinds := [.function]
     check := some Check.bodySize
     phase := .exit
     params :=
      [.ofInt "maxBodyLines" 50 1 "Counted lines allowed.",
       .ofNames "bodyNames" ["body"] "Rendering functions."] },
   { id := "state-ownership"
     category := .architecture
     severity := .error
     description := "Owning state annotations only on values the component constructs."
     kinds := [.property]
     check := some Check.stateOwnership
     params :=
      [.ofNames "owningAnnotations" ["State", "StateObject"],
       .ofNames "observingAnnotations" ["ObservedObject", "Bindable"]] },
   { id := "isolation-consistency"
     category := .concurrency
     severity := .error
     description := "Component state is only touched from the component's isolation domain."
     kinds := [.closure, .function]
     check := some Check.isolation
     params :=
      [.ofNames "isolationAnnotations" ["MainActor"],
       .ofNames "stateAnnotations"
        ["State", "StateObject", "ObservedObject", "Published", "Binding", "Bindable",
         "EnvironmentObject"]] },
   { id := "capture-discipline"
     category := .memory
     severity := .warning
     description := "Escaping closures capture their owner weakly and check liveness first."
     kinds := [.closure]
     check := some Check.captureDiscipline
     params := [.ofNames "ownerNames" ["self"]] },
   { id := "stable-identity"
     category := .performance
     severity := .warning
     description := "Repeated lists supply a stable per-item identifier."
     kinds := [.component, .modifier]
     check := some Check.stableIdentity
     params :=
      [.ofNames "repeaters" ["ForEach", "List"],
       .ofNames "positionalIds" ["\\.offset", "offset", "index", "\\.index"]] },
   { id := "lifecycle-task-binding"
     category := .concurrency
     severity := .warning
     description := "Async work on appearance is bound to the component's lifetime."
     kinds := [.modifier]
     check := some Check.lifecycleTask
     params :=
      [.ofNames "appearanceEvents" ["onAppear"],
       .ofNames "asyncLaunchers" ["Task", "Task.detached"]] },
   { id := "nesting-depth"
     category := .performance
     severity := .info
     description := "A rendering body does not nest containers beyond a depth limit."
     kinds := [.function]
     check := some Check.nestingDepth
     phase := .exit
     params := [.ofInt "maxDepth" 8 1, .ofNames "bodyNames" ["body"]]
     enabled := false },
   { id := "naming-convention"
     category := .style
     severity := .info
     description := "Components are UpperCamelCase; functions and properties lowerCamelCase."
     kinds := [.component, .function, .property]
     check := some Check.naming
     enabled := false },
   { id := unusedSuppression
     category := .style
     severity := .info
     description := "A suppression directive that silenced nothing." }]

/-- The catalog of the standard rules. -/
def Catalog.standard : Catalog := ⟨standardRules⟩

end ComponentLint

-- How declarations are written: owning annotations belong on values that a
-- component makes itself and observing ones on values that it is given, and
-- components are named like types, functions and properties like values.
import ComponentLint.Rule.Check
import ComponentLint.Text.Letter

namespace ComponentLint.Check

open ComponentLint.Text

/-! ## Ownership of state -/

/-- Annotations to choose from, in words; the fallback when there are none. -/
def choices (names : List String) (fallback : String) : String :=
  if names.isEmpty then fallback else " or ".intercalate (names.map ("@" ++ ·))

/-- A property declares ownership of its value exactly when the component constructs it
(`check_state_ownership`). -/
def stateOwnership : Check := .ofRemarks fun ctx =>
  match ctx.component? with
  | none => []
  | some component =>
    let owner := component.nameText
    let name := ctx.node.nameText
    let owning := ctx.names "owningAnnotations"
    let observing := ctx.names "observingAnnotations"
    let initializer := ctx.node.attr "initializer_kind"
    let passedIn := match ctx.node.value.firstAnnotation? owning with
      | some used =>
        if initializer.isText "parameter" then
          let others := choices observing "a non-owning annotation"
          [ctx.remark
            (s!"'@{used} {name}' in '{owner}' is initialized from a passed-in value, "
              ++ s!"but @{used} declares ownership")
            s!"Use {others} for values the component only observes."]
        else []
      | none => []
    let constructed := match ctx.node.value.firstAnnotation? observing with
      | some used =>
        if initializer.isText "construction" then
          let others := choices owning "an owning annotation"
          [ctx.remark
            (s!"'@{used} {name}' constructs its value in place; it is "
              ++ s!"recreated whenever '{owner}' is rebuilt")
            s!"Use {others} for values the component creates and owns."]
        else []
      | none => []
    passedIn ++ constructed

/-! ## Names -/

/-- Whether a name is letters and digits after a first character of some sort. One line feed at its
end is let through. -/
def isCamel (first : Char → Bool) (cs : List Char) : Bool :=
  match withoutFinalFeed cs with
  | [] => false
  | c :: rest => first c && rest.all Char.isAlphanum

/-- Names follow the convention of their kind; operators and the like are left alone
(`check_naming`). -/
def naming : Check := .ofRemarks fun ctx =>
  let given := ctx.node.name.getD ""
  let bare := given.toList.dropWhile fun c => c = '_' || c = '$'
  if bare.head?.any isLetter then
    if ctx.node.kind = .component then
      if isCamel Char.isUpper bare then []
      else
        [ctx.remark s!"Component name '{given}' is not UpperCamelCase"
          "Name components like types, e.g. 'ProfileHeader'."]
    else if isCamel Char.isLower bare then []
    else
      [ctx.remark s!"{ctx.node.kind.title} name '{given}' is not lowerCamelCase"
        "Name functions and properties like values, e.g. 'userName'."]
  else []

end ComponentLint.Check

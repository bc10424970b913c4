-- The fixed vocabulary of rules: how severe a violation is, what a rule is
-- about, and when during the walk it looks at a node.
namespace ComponentLint

/-! ## Severities -/

/-- How severe a violation is. -/
inductive Severity where
  | info
  | warning
  | error
  deriving DecidableEq, Repr

namespace Severity

/-- Every severity, in the order of their names. -/
def all : List Severity := [error, info, warning]

def name : Severity → String
  | info => "info"
  | warning => "warning"
  | error => "error"

/-- The severity with a given name. -/
def ofName? (s : String) : Option Severity := all.find? fun v => v.name == s

/-- The place of a severity, the mildest first. -/
def rank : Severity → Nat
  | info => 0
  | warning => 1
  | error => 2

end Severity

/-! ## Categories -/

/-- What a rule is about. -/
inductive Category where
  | architecture
  | concurrency
  | memory
  | performance
  | style
  deriving DecidableEq, Repr

namespace Category

def all : List Category := [architecture, concurrency, memory, performance, style]

def name : Category → String
  | architecture => "Architecture"
  | concurrency => "Concurrency"
  | memory => "Memory"
  | performance => "Performance"
  | style => "Style"

/-- The category with a given name. -/
def ofName? (s : String) : Option Category := all.find? fun c => c.name == s

end Category

/-! ## Phases -/

/-- When a rule looks at a node: before its children or after its whole subtree. -/
inductive Phase where
  | enter
  | exit
  deriving DecidableEq, Repr

namespace Phase

def all : List Phase := [enter, exit]

def name : Phase → String
  | enter => "enter"
  | exit => "exit"

/-- The phase with a given name. -/
def ofName? (s : String) : Option Phase := all.find? fun p => p.name == s

end Phase

end ComponentLint

/-
This file lists the functions that every program finds bound: their names, the
order in which they are looked up, and how many arguments each takes.
-/

namespace MonkeyLang

/-- The functions that every program finds bound. -/
inductive Builtin
  | len
  | first
  | last
  | rest
  | push
  | puts
deriving DecidableEq, Repr, Inhabited

namespace Builtin

/-- The name a builtin is bound to. -/
def name : Builtin → String
  | len => "len"
  | first => "first"
  | last => "last"
  | rest => "rest"
  | push => "push"
  | puts => "puts"

/-- Every builtin once, in the order in which they are looked up. -/
def all : List Builtin :=
  [len, first, last, rest, push, puts]

/-- The builtin bound to a name, if there is one. -/
def ofName? (name : String) : Option Builtin :=
  all.find? fun builtin => builtin.name == name

/-- How many arguments a builtin takes. Without a number it takes any. -/
def arity? : Builtin → Option Nat
  | len => some 1
  | first => some 1
  | last => some 1
  | rest => some 1
  | push => some 2
  | puts => none

end Builtin

end MonkeyLang

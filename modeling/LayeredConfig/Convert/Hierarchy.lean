import LayeredConfig.Convert.Value

/-!
# Declared supertypes

A value of one type can stand for a value of another if it has been declared how to lift it. A
type has at most one superclass and any number of interfaces, each with its lifting function, and
a later declaration for a type replaces the earlier one as a whole.

The ancestors of a type are its superclass chain, nearest first, and after it the interfaces,
breadth first through interfaces and superclasses alike. Declarations may run in circles: a chain
stops before the first type that it has met, and the search enters each type once. Two marks are
kept in the search. A type is *visited* when a link to it has been followed and *listed* when it
is in the answer; a superclass link visits but never lists.

A type that is met over a superclass link of an interface before it is met over an interface link is
therefore in no answer as an interface (`Proofs/Convert/Inheritance`).
-/

set_option autoImplicit false

namespace LayeredConfig

/-- How values of one type are lifted to another. -/
structure Link (source : TypeKey) where
  target : TypeKey
  lift : Typed source → Typed target

/-- The supertypes of a type. -/
structure Declaration where
  type : TypeKey
  superclass : Option (Link type)
  interfaces : List (Link type)

namespace Declaration

def ofType (type : TypeKey) : Declaration := ⟨type, none, []⟩

def withSuperclass (d : Declaration) (link : Link d.type) : Declaration :=
  ⟨d.type, some link, d.interfaces⟩

/-- The declaration with an interface more. One that was there already moves to the end. -/
def withInterface (d : Declaration) (link : Link d.type) : Declaration :=
  ⟨d.type, d.superclass, d.interfaces.filter (fun other => other.target != link.target) ++ [link]⟩

end Declaration

/-- A declared link with the type that it starts from. -/
structure Step where
  source : TypeKey
  link : Link source

namespace Step

def target (s : Step) : TypeKey := s.link.target

/-- Lifts a value whose type is not known to be the right one. -/
def lift? (s : Step) (v : Value) : Option Value :=
  (v.as? s.source).map fun typed => (s.link.lift typed).val

end Step

namespace Declaration

def superclassStep? (d : Declaration) : Option Step :=
  d.superclass.map fun link => ⟨d.type, link⟩

def interfaceSteps (d : Declaration) : List Step :=
  d.interfaces.map fun link => ⟨d.type, link⟩

def linkCount (d : Declaration) : Nat :=
  d.interfaces.length + (if d.superclass.isSome then 1 else 0)

end Declaration

/-- Steps to be taken one after the other. -/
abbrev Path := List Step

def Path.lift? (p : Path) (v : Value) : Option Value :=
  p.foldlM (fun v step => step.lift? v) v

/-- The place of an ancestor: how far up the superclass chain, or at which position among the
    interfaces. -/
inductive AncestorKind
  | superclass (depth : Nat)
  | interface (rank : Nat)
  deriving DecidableEq, Repr

/-- A type that values of another can be lifted to, and the path on which. -/
structure Ancestor where
  key : TypeKey
  kind : AncestorKind
  path : Path

/-- Declarations, at most one for a type. -/
structure Hierarchy where
  declarations : List Declaration

namespace Hierarchy

def empty : Hierarchy := ⟨[]⟩

def find? (h : Hierarchy) (type : TypeKey) : Option Declaration :=
  h.declarations.find? fun d => d.type == type

/-- Declares the supertypes of a type in place of what was declared for it. -/
def declare (h : Hierarchy) (d : Declaration) : Hierarchy :=
  ⟨d :: h.declarations.filter fun other => other.type != d.type⟩

def superclassStep? (h : Hierarchy) (type : TypeKey) : Option Step :=
  (h.find? type).bind Declaration.superclassStep?

/-- The superclass chain from a type on, which stands `depth` links above the start and is reached
    by `path`, up to the first type in `seen`. Every link of the chain starts from another declared
    type, so `fuel` is enough if it counts the declarations. -/
def chainFrom (h : Hierarchy) (fuel : Nat) (seen : List TypeKey) (type : TypeKey) (path : Path)
    (depth : Nat) : List Ancestor :=
  match fuel with
  | 0 => []
  | fuel + 1 =>
    match h.superclassStep? type with
    | none => []
    | some step =>
      if seen.contains step.target then []
      else
        ⟨step.target, .superclass (depth + 1), path ++ [step]⟩ ::
          h.chainFrom fuel (step.target :: seen) step.target (path ++ [step]) (depth + 1)

/-- The superclass chain of a type, nearest first, up to the first repeated type. -/
def chain (h : Hierarchy) (type : TypeKey) : List Ancestor :=
  h.chainFrom h.declarations.length [type] type [] 0

end Hierarchy

/-- A breadth-first search for interfaces: the types in the answer so far, the types entered, those
    still to be looked at with the paths to them, and the interfaces found in order. -/
structure Walk where
  listed : List TypeKey
  visited : List TypeKey
  queue : List (TypeKey × Path)
  found : List Ancestor

namespace Walk

/-- Follows an interface link from the end of a path. -/
def viaInterface (path : Path) (w : Walk) (step : Step) : Walk :=
  if w.visited.contains step.target then w
  else
    let entered : Walk :=
      { w with
        visited := step.target :: w.visited
        queue := w.queue ++ [(step.target, path ++ [step])] }
    -- A type of the superclass chain is searched through, but it is in the answer already.
    if w.listed.contains step.target then entered
    else
      { entered with
        listed := step.target :: w.listed
        found := w.found ++ [⟨step.target, .interface w.found.length, path ++ [step]⟩] }

/-- Follows a superclass link from the end of a path. -/
def viaSuperclass (path : Path) (w : Walk) (step : Step) : Walk :=
  if w.visited.contains step.target then w
  else
    -- Only an interface link puts its target into the answer.
    { w with
      visited := step.target :: w.visited
      queue := w.queue ++ [(step.target, path ++ [step])] }

/-- Follows every link that is declared for the type at the end of a path: the interfaces, then the
    superclass. -/
def expand (h : Hierarchy) (w : Walk) (type : TypeKey) (path : Path) : Walk :=
  match h.find? type with
  | none => w
  | some d =>
    d.superclassStep?.toList.foldl (viaSuperclass path) (d.interfaceSteps.foldl (viaInterface path) w)

/-- Searches until the queue is empty, for at most `fuel` types. -/
def run (h : Hierarchy) : Nat → Walk → Walk
  | 0, w => w
  | fuel + 1, w =>
    match w.queue with
    | [] => w
    | (type, path) :: queue => run h fuel (expand h { w with queue := queue } type path)

end Walk

namespace Hierarchy

/-- How many links are declared. Each is followed at most once in a search. -/
def linkCount (h : Hierarchy) : Nat :=
  h.declarations.foldr (fun d count => d.linkCount + count) 0

/-- The interfaces of a type, found beyond the types that are listed already. -/
def interfacesBeyond (h : Hierarchy) (type : TypeKey) (listed : List TypeKey) : List Ancestor :=
  (Walk.run h (h.linkCount + 1) ⟨listed, [type], [(type, [])], []⟩).found

/-- The ancestors of a type: the superclass chain, then the interfaces. -/
def ancestors (h : Hierarchy) (type : TypeKey) : List Ancestor :=
  let chain := h.chain type
  chain ++ h.interfacesBeyond type (type :: chain.map Ancestor.key)

end Hierarchy

end LayeredConfig

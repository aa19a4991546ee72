import RefScript.Store.Activations

namespace RefScript

/-!
# Operations

The interface of the store as data: every action that a client can ask for, and
what it answers. A history of the store is a list of operations, each performed
on the store as the one before it left it, whether refused or not.
-/

/-- A request to the store. -/
inductive Operation (Body : Type) where
  | declare (name : String) (kind : CellKind)
  | resolve (name : String)
  | kindOf (name : String)
  | read (name : String)
  | write (name : String) (value : Word)
  | allocate (name : String)
  | copy (target source : String)
  | nextData
  | pushScope
  | popScope
  | pushFrame
  | pushCallFrame (function : String) (formals actuals : List String)
  | popFrame
  | register (name : String) (formals : List String) (body : Body)
  | formalsOf (name : String)
  | bodyOf (name : String)
  | recount
  deriving DecidableEq, Repr

/-- What the store answers to a request that is not refused. -/
inductive Reply (Body : Type) where
  | done
  | cell (cell : Cell)
  | kind (kind : CellKind)
  | word (value : Word)
  | handle (handle : Handle)
  | names (names : List String)
  | body (body : Body)
  deriving DecidableEq, Repr

namespace Store

variable {Body : Type}

/-- Perform a request. -/
def perform : Operation Body → Action Body (Reply Body)
  | .declare name kind => (fun _ => .done) <$> declare name kind
  | .resolve name => .cell <$> resolve name
  | .kindOf name => .kind <$> kindOf name
  | .read name => .word <$> read name
  | .write name value => (fun _ => .done) <$> write name value
  | .allocate name => .handle <$> allocate name
  | .copy target source => (fun _ => .done) <$> copy target source
  | .nextData => .word <$> nextData
  | .pushScope => (fun _ => .done) <$> pushScope
  | .popScope => (fun _ => .done) <$> popScope
  | .pushFrame => (fun _ => .done) <$> pushFrame
  | .pushCallFrame function formals actuals =>
      (fun _ => .done) <$> pushCallFrame function formals actuals
  | .popFrame => (fun _ => .done) <$> popFrame
  | .register name formals body => (fun _ => .done) <$> register name formals body
  | .formalsOf name => .names <$> formalsOf name
  | .bodyOf name => .body <$> bodyOf name
  | .recount => fun store => .ok .done store.recount

/-- The store after a request, refused or not. -/
def after (store : Store Body) (operation : Operation Body) : Store Body :=
  match perform operation store with
  | .ok _ next => next
  | .error _ next => next

/-- The store after a history of requests. -/
def afterAll (store : Store Body) (operations : List (Operation Body)) : Store Body :=
  operations.foldl after store

@[simp] theorem afterAll_nil (store : Store Body) : store.afterAll [] = store :=
  rfl

@[simp] theorem afterAll_cons
    (store : Store Body)
    (operation : Operation Body)
    (rest : List (Operation Body)) :
    store.afterAll (operation :: rest) = (store.after operation).afterAll rest :=
  rfl

end Store

end RefScript

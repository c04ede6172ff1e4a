/-
  Running scripts and loading modules.

  Scripts call functions, functions may require modules, and the script of a
  module runs in turn: evaluation, calls and loading are one recursion.  An
  `Evaluator` does all of it; a step of one kind of work asks an evaluator for
  the work below it, and `evaluator n` is `n` steps deep.

  * `evalStep`, `execStep`: expressions and statements, in a scope; `vars` is
    the scope of the function that `var` declarations belong to;
  * `callStep`: functions, with at most `maxCalls` script functions at work;
  * `requireStep`, `loadStep`, `runModuleStep`: the loader;
  * `exec`, `call`, `require`, `load`: the same on fuel.
-/
import Requisite.Machine.World
import Requisite.Source.Grammar

namespace Requisite.Machine

open Requisite Requisite.Source Requisite.Script Requisite.Loader

open Run

/-! ## Names and members -/

/-- How a statement ends. -/
inductive Completion where
  /-- by coming to its end, with its value -/
  | normal (v : Value)
  /-- by a `return` -/
  | returned (v : Value)

/-- The value of a completed statement. -/
def Completion.value : Completion → Value
  | normal v | returned v => v

/-- The value of a name. -/
def readName (s : ScopeId) (x : String) : ScriptRun Value := do
  match (← heap).get? s x with
  | some v => return v
  | none => fault (.notDefined x)

/-- Gives a name another value. -/
def writeName (s : ScopeId) (x : String) (v : Value) : ScriptRun Unit := do
  match (← heap).assignFailure? s x with
  | some .unbound => fault (.notDefined x)
  | some .constant => fault .constantAssigned
  | none => modifyHeap fun h => h.overwrite s x v

def readMember (object : Value) (key : String) : ScriptRun Value := do
  ofFault ((← heap).getMember object key)

def writeMember (object : Value) (key : String) (v : Value) : ScriptRun Unit := do
  match (← heap).memberFault? object key with
  | some e => fault e
  | none => modifyHeap fun h => h.overwriteMember object key v

def declare (s : ScopeId) (x : String) (v : Value) (writable : Bool) : ScriptRun Unit :=
  modifyHeap fun h => h.declare s x v writable

/-- Where an assignment writes. -/
inductive Target where
  | name (x : String)
  | member (object : Value) (key : String)

def Target.read (s : ScopeId) : Target → ScriptRun Value
  | name x => readName s x
  | member object key => readMember object key

def Target.write (s : ScopeId) (v : Value) : Target → ScriptRun Unit
  | name x => writeName s x v
  | member object key => writeMember object key v

/-- What is said of an expression that is called and is no function. -/
def describeCallee : Expr → String
  | .name x => x
  | .dot object key => describeCallee object ++ "." ++ key
  | .index object _ => describeCallee object ++ "[...]"
  | _ => "expression"

/-! ## Bodies and loops -/

/-- Binds the functions that a body declares, before it runs. -/
def hoist (s : ScopeId) : List Stmt → ScriptRun Unit
  | [] => return
  | .function name params body :: rest => do
    let f ← newFunction ⟨some name, .script params body s, .empty⟩
    declare s name (.function f) true
    hoist s rest
  | _ :: rest => hoist s rest

/-- Runs statements one after the other, up to a `return`.  The value is that of the last one,
    or `last`. -/
def execList (exec : Stmt → ScriptRun Completion) : Value → List Stmt → ScriptRun Completion
  | last, [] => return .normal last
  | _, s :: rest => do
    match ← exec s with
    | .normal v => execList exec v rest
    | .returned v => return .returned v

/-- Runs a body as long as a test holds, up to a `return`. -/
def loop (test : ScriptRun Value) (body : ScriptRun Completion) :
    Nat → Value → ScriptRun Completion
  | 0, _ => outOfFuel
  | n + 1, last => do
    if (← test).truthy then
      match ← body with
      | .normal v => loop test body n v
      | .returned v => return .returned v
    else return .normal last

/-! ## Calls -/

/-- The most script functions that may be at work at once. -/
def maxCalls : Nat := 200

/-- Runs a function's body as one more function at work. -/
def deeper {α : Type} (x : ScriptRun α) : ScriptRun α := do
  if maxCalls ≤ (← get).depth then fault .stackExhausted
  else
    modify fun w => { w with depth := w.depth + 1 }
    andThen x fun w => { w with depth := w.depth - 1 }

theorem result_deeper {α : Type} (x : ScriptRun α) (w : World) :
    (deeper x).result w =
      if maxCalls ≤ w.depth then (.error (.error (.fault .stackExhausted)), w)
      else
        ((x.result { w with depth := w.depth + 1 }).1,
          { (x.result { w with depth := w.depth + 1 }).2 with
            depth := (x.result { w with depth := w.depth + 1 }).2.depth - 1 }) := by
  simp only [deeper, result_bind, result_get]
  split <;> simp [result_bind]

/-- Runs the script of a module: its functions are counted from none, and those that wait for
    the module afterwards count as before. -/
def apart {α : Type} (x : ScriptRun α) : ScriptRun α := do
  let depth := (← get).depth
  modify fun w => { w with depth := 0 }
  andThen x fun w => { w with depth := depth }

theorem result_apart {α : Type} (x : ScriptRun α) (w : World) :
    (apart x).result w =
      ((x.result { w with depth := 0 }).1,
        { (x.result { w with depth := 0 }).2 with depth := w.depth }) := by
  simp [apart, result_bind]

/-- Binds parameters to arguments; those without one are undefined. -/
def bindParams (s : ScopeId) : List String → List Value → ScriptRun Unit
  | [], _ => return
  | p :: ps, [] => do
    declare s p .undefined true
    bindParams s ps []
  | p :: ps, v :: vs => do
    declare s p v true
    bindParams s ps vs

/-- Makes the scope of a call, and binds the parameters and the functions of the body in it. -/
def enter (params : List String) (body : List Stmt) (closure : ScopeId) (args : List Value) :
    ScriptRun ScopeId := do
  let s ← newScope (some closure)
  bindParams s params args
  hoist s body
  return s

/-- What a call gives for the way its body ended. -/
def Completion.result : Completion → Value
  | .returned v => v
  | .normal _ => .undefined

/-- What a value does when it is called, if it is a function. -/
def codeOf? (h : Heap) : Value → Option Code
  | .function id => (h.function? id).map Function.code
  | _ => none

/-! ## Modules -/

/-- The identifier that a script requires a module by. -/
def identifierOf (args : List Value) : ScriptRun String :=
  match args with
  | .string id :: _ => if id = "" then fault .emptyIdentifier else return id
  | v :: _ => fault (.identifierType v.typeOf)
  | [] => fault (.identifierType Value.undefined.typeOf)

/-- Makes a function for scripts to require modules by, with the member `resolve`. -/
def newRequireIn (h : Heap) : FunctionId × Heap :=
  let (resolve, h) := h.newFunction ⟨some "resolve", .native .resolve, .empty⟩
  h.newFunction
    ⟨some "require", .native .require, OrderedMap.ofList [("resolve", .function resolve)]⟩

/-- The parameters that the script of a module has. -/
def moduleParams : List String := ["require", "exports", "module"]

/-- The file that an identifier leads to from the module at work. -/
def resolve (id : String) : LoaderRun Path := do
  let m ← modules
  match m.resolver.resolve m.files id m.cache.currentContext with
  | .ok p => return p
  | .error e => fail e

/-- The directory that identifiers are seen from. -/
def Modules.base (m : Modules) : Path := m.cache.currentContext.getD m.resolver.cwd

/-- Whether what a module leaves as its exports replaces the placeholder. -/
def replaces (exported placeholder : Value) : Bool :=
  !exported.strictEq placeholder && !exported.isNullish

/-- Records a module as being at work, with an empty object for its exports. -/
def reserve (id : String) (path : Path) : LoaderRun Reservation := do
  let placeholder ← newObject .empty
  let r : Reservation := ⟨id, path, .object placeholder⟩
  modifyCache fun c => c.reserve r
  note (.reserved path)
  return r

/-- Records a module as loaded, and gives its exports. -/
def commit (r : Reservation) (exports : Value) : LoaderRun Value := do
  let (v, cache) := (← modules).cache.commit r exports
  modifyCache fun _ => cache
  note (.committed r.path)
  return v

/-- Drops the record of a module that failed. -/
def abandon (r : Reservation) : LoaderRun Unit := do
  modifyCache fun c => c.abandon r
  note (.abandoned r.path)

/-- Makes what the script of a module is given, and notes that it begins: the arguments, and the
    object `module`. -/
def beginModule (r : Reservation) : ScriptRun (List Value × ObjectId) := do
  let module ← newObject (OrderedMap.ofList
    [("id", .string r.id), ("path", .string r.path.text), ("exports", r.placeholder)])
  let require ← modifyGetHeap newRequireIn
  modifyCache fun c => c.pushContext (r.path.parent?.getD r.path)
  note (.entered r.path)
  return ([.function require, r.placeholder, .object module], module)

/-- The world with the context stack cut back to `depth` directories. -/
def World.truncate (w : World) (depth : Nat) : World :=
  { w with modules := { w.modules with cache := w.modules.cache.truncate depth } }

/-- The exports of a module whose script is done: what it left in `module.exports`, or the
    placeholder. -/
def harvest (r : Reservation) (module : ObjectId) : ScriptRun Value := do
  let exported := (((← heap).properties module).get? "exports").getD .undefined
  return if replaces exported r.placeholder then exported else r.placeholder

/-! ## Evaluators -/

/-- What evaluates scripts and loads modules: a function for each kind of work. -/
structure Evaluator where
  /-- how often a loop may turn -/
  turns : Nat
  /-- the value of an expression -/
  eval : ScopeId → Expr → ScriptRun Value
  /-- what an assignment writes to -/
  evalTarget : ScopeId → Expr → ScriptRun Target
  /-- runs a statement -/
  exec : ScopeId → ScopeId → Stmt → ScriptRun Completion
  /-- calls a value with arguments -/
  call : Value → List Value → ScriptRun Value
  /-- the exports of the module that an identifier leads to -/
  require : String → LoaderRun Value
  /-- the exports of the module at a path -/
  load : String → Path → LoaderRun Value
  /-- runs the script of a module -/
  runModule : Reservation → String → ScriptRun Value

namespace Evaluator

/-- Has no fuel for anything. -/
def exhausted : Evaluator where
  turns := 0
  eval _ _ := outOfFuel
  evalTarget _ _ := outOfFuel
  exec _ _ _ := outOfFuel
  call _ _ := outOfFuel
  require _ := outOfFuel
  load _ _ := outOfFuel
  runModule _ _ := outOfFuel

variable (m : Evaluator)

/-! ## Expressions -/

/-- A property of an object literal. -/
def evalEntry (s : ScopeId) : String × Expr → ScriptRun (String × Value)
  | (key, e) => do return (key, ← m.eval s e)

/-- What an assignment writes: the value of its right side, joined to the old value if the
    operator says so. -/
def evalAssigned (s : ScopeId) (op : AssignOp) (place : Target) (e : Expr) : ScriptRun Value :=
  match op.binary? with
  | none => m.eval s e
  | some b => do
    let old ← place.read s
    let v ← m.eval s e
    return (← heap).binary b old v

/-- The value of an expression. -/
def evalStep (s : ScopeId) : Expr → ScriptRun Value
  | .number x => return .number x
  | .string t => return .string t
  | .boolean b => return .boolean b
  | .null => return .null
  | .name x => readName s x
  | .array items => do
    let vs ← items.mapM (m.eval s)
    return .array (← newArray vs.toArray)
  | .object entries => do
    let ps ← entries.mapM (m.evalEntry s)
    return .object (← newObject (OrderedMap.ofList ps))
  | .function name params body => do
    let closure ← newScope (some s)
    let f ← newFunction ⟨name, .script params body closure, .empty⟩
    -- a function with a name can refer to itself by it
    match name with
    | some x => declare closure x (.function f) false
    | none => pure ()
    return .function f
  | .unary .typeOf (.name x) => do
    -- an unbound name has a type, too
    return .string (((← heap).get? s x).getD .undefined).typeOf
  | .unary op e => do return unary op (← m.eval s e)
  | .binary op a b => do
    let v ← m.eval s a
    let w ← m.eval s b
    return (← heap).binary op v w
  | .logical op a b => do
    let v ← m.eval s a
    if settles op v then return v else m.eval s b
  | .assign op target e => do
    let place ← m.evalTarget s target
    let v ← m.evalAssigned s op place e
    place.write s v
    return v
  | .conditional test a b => do
    if (← m.eval s test).truthy then m.eval s a else m.eval s b
  | .call callee args => do
    let f ← m.eval s callee
    if f.isFunction then
      let vs ← args.mapM (m.eval s)
      m.call f vs
    else fault (.notFunction (describeCallee callee))
  | .dot object key => do readMember (← m.eval s object) key
  | .index object key => do
    let v ← m.eval s object
    let k ← m.eval s key
    readMember v ((← heap).display k)

/-- What an assignment writes to. -/
def evalTargetStep (s : ScopeId) : Expr → ScriptRun Target
  | .name x => return .name x
  | .dot object key => do return .member (← m.eval s object) key
  | .index object key => do
    let v ← m.eval s object
    let k ← m.eval s key
    return .member v ((← heap).display k)
  | _ => fault .invalidTarget

/-! ## Statements -/

/-- The value that a name is declared with. -/
def evalInitial (s : ScopeId) : Option Expr → ScriptRun Value
  | some e => m.eval s e
  | none => return .undefined

/-- Declares a name of a declaration. -/
def execBinding (s vars : ScopeId) (kind : BindingKind) : String × Option Expr → ScriptRun Unit
  | (x, e) => do
    let v ← m.evalInitial s e
    match kind with
    | .var => declare vars x v true
    | .lexical => declare s x v true
    | .constant => declare s x v false

/-- Runs a statement in the scope `s`. -/
def execStep (s vars : ScopeId) : Stmt → ScriptRun Completion
  | .declare kind bindings => do
    bindings.forM (m.execBinding s vars kind)
    return .normal .undefined
  -- bound before the body began to run
  | .function _ _ _ => return .normal .undefined
  | .expression e => do return .normal (← m.eval s e)
  | .block body => do
    let inner ← newScope (some s)
    hoist inner body
    execList (m.exec inner vars) .undefined body
  | .conditional test a b => do
    if (← m.eval s test).truthy then m.exec s vars a
    else
      match b with
      | some b => m.exec s vars b
      | none => return .normal .undefined
  | .while test body => loop (m.eval s test) (m.exec s vars body) m.turns .undefined
  | .return e => do return .returned (← m.evalInitial s e)
  | .throw e line => do fail (.thrown (← m.eval s e) line)
  | .empty => return .normal .undefined

/-! ## Calls -/

/-- Calls a function of a script. -/
def callScript (params : List String) (body : List Stmt) (closure : ScopeId)
    (args : List Value) : ScriptRun Value :=
  deeper do
    let s ← enter params body closure args
    return (← execList (m.exec s s) .undefined body).result

/-- Calls a function that scripts do not define. -/
def callNative (args : List Value) : Native → ScriptRun Value
  | .log => do
    printLine ((← heap).displayList args)
    return .undefined
  | .error => do
    printErrorLine ((← heap).displayList args)
    return .undefined
  | .warn => do
    printErrorLine ("Warning: " ++ (← heap).displayList args)
    return .undefined
  | .require => do
    if (← modules).alive then
      let id ← identifierOf args
      mapError (fun e => .host (.loader e)) (m.require id)
    else fault .loaderGone
  | .resolve => do
    if (← modules).alive then
      let id ← identifierOf args
      return .string (← mapError (fun e => .host (.loader e)) (resolve id)).text
    else fault .loaderGone

/-- Calls a value with arguments. -/
def callStep (f : Value) (args : List Value) : ScriptRun Value := do
  match codeOf? (← heap) f with
  | none => fault (.notFunction ((← heap).display f))
  | some (.script params body closure) => m.callScript params body closure args
  | some (.native native) => m.callNative args native

/-! ## Loading -/

/-- The exports of the module that an identifier leads to. -/
def requireStep (id : String) : LoaderRun Value := do
  let ms ← modules
  match ms.cache.lookup ms.base id with
  | some v => do
    note (.indexHit id)
    return v
  | none => do
    let path ← resolve id
    let v ← m.load id path
    modifyCache fun c => c.remember ms.base id path
    return v

/-- Runs the script of a reserved module, and commits what it leaves or abandons it. -/
def loadReserved (r : Reservation) (text : String) : LoaderRun Value :=
  tryCatch
    (do
      let v ← mapError (.failed r.path) (m.runModule r text)
      commit r v)
    (fun
      | .error e => do
        abandon r
        fail e
      | .outOfFuel => outOfFuel)

/-- The exports of the module at a path: those on record, also if the module is at work itself,
    or else what its script leaves. -/
def loadStep (id : String) (path : Path) : LoaderRun Value := do
  let ms ← modules
  match ms.cache.record? path with
  | some r => do
    note (.recordHit path r.state)
    return r.exports
  | none =>
    match ms.files.readText path with
    | .error reason => fail (.unreadable path reason)
    | .ok text => do
      let r ← reserve id path
      m.loadReserved r text

/-- Runs the script of a module in its own directory, and gives its exports. -/
def runModuleStep (r : Reservation) (text : String) : ScriptRun Value :=
  match Program.ofText? text with
  | .error e => fail (.malformed e)
  | .ok body => do
    let depth := (← modules).cache.contextDepth
    let (args, module) ← beginModule r
    let globals := (← get).globals
    let _ ← andThen (apart (m.callScript moduleParams body globals args)) fun w => w.truncate depth
    harvest r module

end Evaluator

/-! ## Fuel -/

/-- The evaluator that goes at most `n` steps deep. -/
def evaluator : Nat → Evaluator
  | 0 => .exhausted
  | n + 1 =>
    -- each function asks for the evaluator below only when it is called
    { turns := n + 1
      eval := fun s e => (evaluator n).evalStep s e
      evalTarget := fun s e => (evaluator n).evalTargetStep s e
      exec := fun s vars stmt => (evaluator n).execStep s vars stmt
      call := fun f args => (evaluator n).callStep f args
      require := fun id => (evaluator n).requireStep id
      load := fun id path => (evaluator n).loadStep id path
      runModule := fun r text => (evaluator n).runModuleStep r text }

/-- Runs a statement. -/
def exec (fuel : Nat) (s vars : ScopeId) (stmt : Stmt) : ScriptRun Completion :=
  (evaluator fuel).exec s vars stmt

/-- Calls a value with arguments. -/
def call (fuel : Nat) (f : Value) (args : List Value) : ScriptRun Value :=
  (evaluator fuel).call f args

/-- The exports of the module that an identifier leads to. -/
def require (fuel : Nat) (id : String) : LoaderRun Value := (evaluator fuel).require id

/-- The exports of the module at a path. -/
def load (fuel : Nat) (id : String) (path : Path) : LoaderRun Value :=
  (evaluator fuel).load id path

end Requisite.Machine

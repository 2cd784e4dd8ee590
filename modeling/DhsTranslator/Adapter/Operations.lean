import DhsTranslator.Conc.Interleaving
import DhsTranslator.Keyword

/-!
# The adapter

`DhsAdapter` as programs over the commands `AdapterCmd`: its timed lock, its two shared fields, and the calls of the
client library, each in two commands, since other threads may act while a thread is inside.

- A library call gets the status and leaves one, as it does through its last argument; nothing is assumed of what it
  answers.
- `adapterSem` is what the commands do to the adapter, whoever issues them. A lock attempt may time out at any time;
  `unlock` frees the lock whoever holds it, so that a misplaced one would show. `adapterHandler` is one thread alone.
- Log messages are left out.
-/

namespace DhsTranslator

open Conc

/-! ## The client library -/

/-- Connections. -/
inductive DhsConnect where
  | CONNECT_NULL
  | handle (n : Nat)
  deriving DecidableEq, Repr

/-- Attribute value lists, by handle. -/
structure DhsAvList where
  handle : Nat
  deriving DecidableEq, Repr

/-- Commands under way, by handle. -/
structure DhsTag where
  handle : Nat
  deriving DecidableEq, Repr

/-- What has become of a command. -/
inductive DhsCmdStatus where
  | DONE
  | other (code : Int)
  deriving DecidableEq, Repr

/-- The last argument of `dhsAvAdd` before the status, by the type it is passed with. -/
inductive AvValue where
  | uint8 (v : UInt8)
  | uint16 (v : UInt16)
  | uint32 (v : UInt32)
  | int8 (v : Int8)
  | int16 (v : Int16)
  | int32 (v : Int32)
  | float (v : CFloat)
  | double (v : CDouble)
  | string (v : String)
  | boolean (v : Bool)
  deriving DecidableEq

/-- Library calls with their arguments. -/
inductive LibCall where
  | dhsInit (name : String) (size : Nat)
  | dhsEventLoop
  | dhsConnect (host server : String)
  | dhsBdName (connection : DhsConnect)
  | dhsBdCtlLifetime (connection : DhsConnect) (id : ImageId) (lifeTime : DhsBdLifetime)
  | dhsBdCtlContrib (connection : DhsConnect) (id : ImageId) (count : Int32) (contribs : List String)
  | dhsAvListNew
  | dhsAvAdd (avList : DhsAvList) (name : String) (type : DhsDataType) (value : AvValue)
  | dhsAvListSize (avList : DhsAvList)
  | dhsBdPut (connection : DhsConnect) (id : ImageId) (final : Bool) (avList : DhsAvList)
  | dhsWait (tag : DhsTag)
  | dhsStatus (tag : DhsTag)
  | dhsTagFree (tag : DhsTag)
  | dhsAvListFree (avList : DhsAvList)
  deriving DecidableEq

/-- What the calls return besides the status; a `char *` may be `NULL`. -/
abbrev LibCall.Ret : LibCall → Type
  | .dhsConnect _ _ => DhsConnect
  | .dhsBdName _ => Option String
  | .dhsAvListNew => DhsAvList
  | .dhsAvListSize _ => Int
  | .dhsBdPut _ _ _ _ => DhsTag
  | .dhsStatus _ => DhsCmdStatus
  | _ => Unit

/-- What a call leaves. -/
structure LibCall.Answer (f : LibCall) where
  ret : f.Ret
  status : DhsStatus

/-! ## Commands -/

inductive AdapterCmd where
  | timedLock
  | unlock
  | getIsConnected
  | setIsConnected (b : Bool)
  | getConnection
  | setConnection (c : DhsConnect)
  | enter (f : LibCall) (status : DhsStatus)
  | leave (f : LibCall)
  deriving DecidableEq

abbrev AdapterCmd.Resp : AdapterCmd → Type
  | .timedLock => Bool
  | .getIsConnected => Bool
  | .getConnection => DhsConnect
  | .leave f => f.Answer
  | _ => Unit

abbrev AdapterSig : Sig := ⟨AdapterCmd, AdapterCmd.Resp⟩

/-- Why an operation of the adapter may not return. -/
inductive AdapterAbort where
  /-- a string was assigned from `NULL` -/
  | nullString
  /-- an exception of the code that is called -/
  | raised (a : Abort)
  deriving DecidableEq, Repr

abbrev Adapter := Prog AdapterSig AdapterAbort

/-- The arguments of the constructor that the operations read. -/
structure AdapterConfig where
  myName : String
  serverHost : String
  serverName : String

namespace DhsAdapter

def timedLock : Adapter Bool := .call (S := AdapterSig) .timedLock .ret

def unlock : Adapter Unit := .call (S := AdapterSig) .unlock .ret

def getIsConnected : Adapter Bool := .call (S := AdapterSig) .getIsConnected .ret

def setIsConnected (b : Bool) : Adapter Unit := .call (S := AdapterSig) (.setIsConnected b) .ret

def getConnection : Adapter DhsConnect := .call (S := AdapterSig) .getConnection .ret

def setConnection (c : DhsConnect) : Adapter Unit := .call (S := AdapterSig) (.setConnection c) .ret

/-- A library call with the status it is given. -/
def lib (f : LibCall) (status : DhsStatus) : Adapter f.Answer :=
  .call (S := AdapterSig) (.enter f status) fun _ => .call (S := AdapterSig) (.leave f) .ret

/-- A C++ expression that may throw. -/
def eval {α : Type} : Except Abort α → Adapter α
  | .ok a => .ret a
  | .error e => .raise (.raised e)

/-! ## The operations -/

variable (cfg : AdapterConfig)

def checkConnection : Adapter Bool := do
  if !(← timedLock) then
    return false
  if !(← getIsConnected) then
    let ⟨connection, status⟩ ← lib (.dhsConnect cfg.serverHost cfg.serverName) .S_SUCCESS
    setConnection connection
    setIsConnected (status = .S_SUCCESS)
  unlock
  -- read again, after the lock is free
  getIsConnected

/-- The constructor. -/
def construct : Adapter Unit := do
  setIsConnected false
  setConnection .CONNECT_NULL
  let ⟨_, status⟩ ← lib (.dhsInit cfg.myName (1024 * 1024)) .S_SUCCESS
  let _ ← lib .dhsEventLoop status
  let _ ← checkConnection cfg

/-- `createImage`: the status and the id. -/
def createImage (id : ImageId) : Adapter (DhsStatus × ImageId) := do
  if !(← checkConnection cfg) then
    return (.E_CTL_CMD, id)
  if !(← timedLock) then
    return (.E_CTL_CMD, id)
  let connection ← getConnection
  let ⟨newId, status⟩ ← lib (.dhsBdName connection) .S_SUCCESS
  unlock
  if status = .S_SUCCESS then
    match newId with
    | some newId => return (status, newId)
    | none => Prog.raise .nullString
  return (status, id)

def setImageLifeTime (id : ImageId) (lifeTime : DhsBdLifetime) : Adapter DhsStatus := do
  if !(← checkConnection cfg) then
    return .E_CTL_CMD
  if !(← timedLock) then
    return .E_CTL_CMD
  let connection ← getConnection
  let ⟨_, status⟩ ← lib (.dhsBdCtlLifetime connection id lifeTime) .S_SUCCESS
  unlock
  return status

def setImageContrib (id : ImageId) (contribs : List String) : Adapter DhsStatus := do
  if !(← checkConnection cfg) then
    return .E_CTL_CMD
  if contribs.isEmpty then
    return .S_SUCCESS
  if !(← timedLock) then
    return .E_CTL_CMD
  let connection ← getConnection
  let ⟨_, status⟩ ← lib (.dhsBdCtlContrib connection id (Int32.ofNat contribs.length) contribs) .S_SUCCESS
  unlock
  return status

/-- The value of a keyword as it is passed to `dhsAvAdd`, by the type of the keyword. -/
def avValue (k : Keyword) : Except Abort AvValue :=
  match k.type with
  | .UINT8 => AvValue.uint8 <$> k.getValue UInt8
  | .UINT16 => AvValue.uint16 <$> k.getValue UInt16
  | .UINT32 => AvValue.uint32 <$> k.getValue UInt32
  | .INT8 => AvValue.int8 <$> k.getValue Int8
  | .INT16 => AvValue.int16 <$> k.getValue Int16
  | .INT32 => AvValue.int32 <$> k.getValue Int32
  | .FLOAT => AvValue.float <$> k.getValue CFloat
  | .DOUBLE => AvValue.double <$> k.getValue CDouble
  | .STRING => AvValue.string <$> k.getValue String
  | .BOOLEAN => AvValue.boolean <$> k.getValue Bool

/-- One turn of the loop over the keywords. -/
def addKeyword (avList : DhsAvList) (status : DhsStatus) (k : Keyword) : Adapter DhsStatus := do
  let value ← eval (avValue k)
  let ⟨_, status⟩ ← lib (.dhsAvAdd avList k.name k.type value) status
  return status

/-- Store a list that is not empty and wait until it is stored. -/
def putAvList (id : ImageId) (final : Bool) (avList : DhsAvList) (status : DhsStatus) : Adapter DhsStatus := do
  let connection ← getConnection
  let ⟨tag, status⟩ ← lib (.dhsBdPut connection id final avList) status
  let ⟨_, status⟩ ← lib (.dhsWait tag) status
  let ⟨cmdStatus, status⟩ ← lib (.dhsStatus tag) status
  let status := if cmdStatus = .DONE then status else .E_CTL_CMD
  let _ ← lib (.dhsTagFree tag) .S_SUCCESS
  return status

def setImageKeywords (id : ImageId) (keywords : List Keyword) (final : Bool) : Adapter DhsStatus := do
  if !(← checkConnection cfg) then
    return .E_CTL_CMD
  if keywords.isEmpty then
    return .S_SUCCESS
  if !(← timedLock) then
    return .E_CTL_CMD
  let ⟨avList, status⟩ ← lib .dhsAvListNew .S_SUCCESS
  let status ← keywords.foldlM (addKeyword avList) status
  let ⟨size, status⟩ ← lib (.dhsAvListSize avList) status
  let status ← if size > 0 then putAvList id final avList status else pure status
  let _ ← lib (.dhsAvListFree avList) .S_SUCCESS
  unlock
  return status

end DhsAdapter

/-! ## The shared adapter -/

/-- The lock with its owner, the shared fields, and the library call each thread is inside of. -/
structure AdapterState (ι : Type) where
  owner : Option ι
  isConnected : Bool
  connection : DhsConnect
  inside : ι → Option LibCall

/-- What a command does to the adapter. -/
def adapterSem {ι : Type} [DecidableEq ι] : Sem ι (AdapterState ι) AdapterSig
  | i, s, ⟨.timedLock, true⟩, s' => s.owner = none ∧ s' = { s with owner := some i }
  | _, s, ⟨.timedLock, false⟩, s' => s' = s
  | _, s, ⟨.unlock, _⟩, s' => s' = { s with owner := none }
  | _, s, ⟨.getIsConnected, b⟩, s' => b = s.isConnected ∧ s' = s
  | _, s, ⟨.setIsConnected b, _⟩, s' => s' = { s with isConnected := b }
  | _, s, ⟨.getConnection, c⟩, s' => c = s.connection ∧ s' = s
  | _, s, ⟨.setConnection c, _⟩, s' => s' = { s with connection := c }
  | i, s, ⟨.enter f _, _⟩, s' => s' = { s with inside := Function.update s.inside i (some f) }
  | i, s, ⟨.leave _, _⟩, s' => s' = { s with inside := Function.update s.inside i none }

/-- Answer the commands of thread `i`, the library calls by `answers`. -/
def adapterHandler {ι : Type} [DecidableEq ι] (answers : (f : LibCall) → f.Answer) (i : ι) :
    (c : AdapterCmd) → AdapterState ι → c.Resp × AdapterState ι
  | .timedLock, s => if s.owner = none then (true, { s with owner := some i }) else (false, s)
  | .unlock, s => ((), { s with owner := none })
  | .getIsConnected, s => (s.isConnected, s)
  | .setIsConnected b, s => ((), { s with isConnected := b })
  | .getConnection, s => (s.connection, s)
  | .setConnection c, s => ((), { s with connection := c })
  | .enter f _, s => ((), { s with inside := Function.update s.inside i (some f) })
  | .leave f, s => (answers f, { s with inside := Function.update s.inside i none })

theorem adapterHandler_sem {ι : Type} [DecidableEq ι] {answers : (f : LibCall) → f.Answer} {i : ι} (c : AdapterCmd)
    (s : AdapterState ι) :
    adapterSem i s ⟨c, (adapterHandler answers i c s).1⟩ (adapterHandler answers i c s).2 := by
  cases c with
  | timedLock =>
    by_cases h : s.owner = none
    · simp only [adapterHandler, if_pos h]
      exact ⟨h, rfl⟩
    · simp only [adapterHandler, if_neg h]
      rfl
  | getIsConnected => exact ⟨rfl, rfl⟩
  | getConnection => exact ⟨rfl, rfl⟩
  | _ => rfl

/-- The operations of `IDhsAdapter` with their arguments. -/
inductive Operation where
  | createImage (id : ImageId)
  | setImageLifeTime (id : ImageId) (lifeTime : DhsBdLifetime)
  | setImageContrib (id : ImageId) (contribs : List String)
  | setImageKeywords (id : ImageId) (keywords : List Keyword) (final : Bool)
  deriving DecidableEq

/-- A call of an operation: its status, and the id as the call leaves it. -/
def Operation.call (cfg : AdapterConfig) : Operation → Adapter (DhsStatus × ImageId)
  | .createImage id => DhsAdapter.createImage cfg id
  | .setImageLifeTime id lifeTime => return (← DhsAdapter.setImageLifeTime cfg id lifeTime, id)
  | .setImageContrib id contribs => return (← DhsAdapter.setImageContrib cfg id contribs, id)
  | .setImageKeywords id keywords final => return (← DhsAdapter.setImageKeywords cfg id keywords final, id)

end DhsTranslator

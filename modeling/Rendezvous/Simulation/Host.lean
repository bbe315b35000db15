import Rendezvous.Machine
import Rendezvous.Simulation.Fault

/-!
# A simulated virtual machine

The host is a machine made of data: classes with their methods, a table of services, and faults. It
counts calls, lends buffers by number, and keeps what it was told to do. A call that a fault strikes
does nothing but report the code; if that is the code for success, its outputs are null.
-/

namespace Rendezvous.Simulation

open Text (Bytes)

structure HostMethod where
  id : MethodId
  name : Option Bytes
  signature : Option Bytes
  /-- What asking for the name reports, in place of the name. -/
  error : Option ErrorCode
  deriving DecidableEq, Repr

structure HostClass where
  id : ClassId
  signature : Option Bytes
  methods : List HostMethod
  /-- What asking for the signature reports, in place of the signature. -/
  signatureError : Option ErrorCode
  /-- What asking for the methods reports, in place of the table. -/
  methodsError : Option ErrorCode
  /-- The count stated for the table, if it is not the number of methods. -/
  count : Option Int32
  /-- The table is null, whatever the count. -/
  nullTable : Bool
  /-- A table without methods has a buffer all the same. -/
  lendsEmpty : Bool
  deriving DecidableEq, Repr

namespace HostClass

/-- The methods of a table as it is lent, unless the table is null. -/
def table? (klass : HostClass) : Option (List MethodId) :=
  if klass.nullTable || (klass.methods.isEmpty && !klass.lendsEmpty) then none
  else some (klass.methods.map HostMethod.id)

/-- The stated count; for a table that is not null it never exceeds the number of methods. -/
def statedCount (klass : HostClass) : Int32 :=
  let total := Int32.ofNat klass.methods.length
  let stated := klass.count.getD total
  if klass.table?.isSome && total < stated then total else stated

end HostClass

structure Host where
  reference : MachineRef
  /-- The environment handed out, and the status reported unless it is success. -/
  env : Env
  status : Status
  classes : List HostClass
  services : ServiceTable
  faults : FaultPlan
  /-- What was called, the last call first. -/
  calls : List FaultKey
  /-- How many buffers have been lent. -/
  lent : Nat
  /-- How many buffers have come back. -/
  returned : Nat
  /-- The buffers that have not come back, ascending. -/
  outstanding : List Nat
  capabilities : List Capabilities
  callbacks : Option Callbacks
  events : List UInt32
  breakpoints : List (MethodId × Int64)

namespace Host

def start (classes : List HostClass) (services : ServiceTable) (faults : FaultPlan) : Host where
  reference := .live
  env := .live
  status := Status.success
  classes := classes
  services := services
  faults := faults
  calls := []
  lent := 0
  returned := 0
  outstanding := []
  capabilities := []
  callbacks := none
  events := []
  breakpoints := []

/-- Counts a call, and tells whether a fault strikes it. -/
def count (host : Host) (key : FaultKey) : Option ErrorCode × Host :=
  (host.faults key (host.calls.count key + 1), { host with calls := key :: host.calls })

/-- Lends a buffer, or null for no content. -/
def lend {α : Type} (host : Host) : Option α → Option (Buffer α) × Host
  | none => (none, host)
  | some content =>
    (some ⟨host.lent + 1, content⟩,
      { host with lent := host.lent + 1, outstanding := host.outstanding ++ [host.lent + 1] })

def findClass? (host : Host) (klass : ClassId) : Option HostClass :=
  host.classes.find? fun candidate => candidate.id = klass

/-- The first method of this identity, over all classes in order. -/
def findMethod? (host : Host) (method : MethodId) : Option HostMethod :=
  (host.classes.flatMap HostClass.methods).find? fun candidate => candidate.id = method

/-- Answers a call unless a fault strikes it. -/
def unlessFault {α : Type} (key : FaultKey) (null : α) (answer : Host → Reply α × Host)
    (host : Host) : Reply α × Host :=
  match host.count key with
  | (some code, counted) => (.ofCode code null, counted)
  | (none, counted) => answer counted

def refuse {α : Type} (code : ErrorCode) (null : α) (host : Host) : Reply α × Host :=
  (.ofCode code null, host)

def environment (version : Version) (host : Host) : (Status × Env) × Host :=
  if host.status ≠ Status.success then ((host.status, .null), host)
  else if version = Version.first || version = Version.required then
    ((Status.success, host.env), host)
  else ((Status.unknownVersion, .null), host)

def addCapabilities (wanted : Capabilities) : Host → Reply Unit × Host :=
  unlessFault (.service .addCapabilities) () fun host =>
    (.ok (), { host with capabilities := host.capabilities ++ [wanted] })

def setEventCallbacks (callbacks : Callbacks) : Host → Reply Unit × Host :=
  unlessFault (.service .setEventCallbacks) () fun host =>
    (.ok (), { host with callbacks := some callbacks })

/-- Both counts advance in any case, and the fault of the service comes before that of the event. -/
def setEventNotificationMode (mode : Mode) (event : UInt32) (_thread : ThreadId) (host : Host) :
    Reply Unit × Host :=
  let (fault, host) := host.count (.service .setEventNotificationMode)
  let (eventFault, host) := host.count (.mode event)
  match fault <|> eventFault with
  | some code => (.ofCode code (), host)
  | none =>
    if mode = Mode.enable then (.ok (), { host with events := host.events ++ [event] })
    else (.ok (), { host with events := host.events.filter fun other => other != event })

def getClassSignature (klass : ClassId) : Host → Reply LentText × Host :=
  unlessFault (.service .getClassSignature) none fun host =>
    match host.findClass? klass with
    | none => refuse .invalidClass none host
    | some found =>
      match found.signatureError with
      | some code => refuse code none host
      | none => let (buffer, host) := host.lend found.signature; (.ok buffer, host)

def getClassMethods (klass : ClassId) : Host → Reply LentTable × Host :=
  unlessFault (.service .getClassMethods) .null fun host =>
    match host.findClass? klass with
    | none => refuse .invalidClass .null host
    | some found =>
      match found.methodsError with
      | some code => refuse code .null host
      | none =>
        let (buffer, host) := host.lend (found.table?)
        (.ok ⟨found.statedCount, buffer⟩, host)

def getMethodName (method : MethodId) : Host → Reply LentName × Host :=
  unlessFault (.service .getMethodName) .null fun host =>
    match host.findMethod? method with
    | none => refuse .invalidMethod .null host
    | some found =>
      match found.error with
      | some code => refuse code .null host
      | none =>
        let (name, host) := host.lend found.name
        let (signature, host) := host.lend found.signature
        (.ok ⟨name, signature⟩, host)

def setBreakpoint (method : MethodId) (location : Int64) : Host → Reply Unit × Host :=
  unlessFault (.service .setBreakpoint) () fun host =>
    match host.findMethod? method with
    | none => refuse .invalidMethod () host
    | some _ =>
      if host.breakpoints.contains (method, location) then refuse .duplicate () host
      else (.ok (), { host with breakpoints := host.breakpoints ++ [(method, location)] })

def deallocate (address : Address) : Host → Reply Unit × Host :=
  unlessFault (.service .deallocate) () fun host =>
    match address.number? with
    | none => refuse .illegalArgument () host
    | some number =>
      if host.outstanding.contains number then
        (.ok (), { host with
          returned := host.returned + 1
          outstanding := host.outstanding.filter fun other => other != number })
      else refuse .illegalArgument () host

/-- The host as a machine. -/
def machine : Machine Host where
  reference host := host.reference
  provides service host := host.services.provides service
  environment := environment
  addCapabilities := addCapabilities
  setEventCallbacks := setEventCallbacks
  setEventNotificationMode := setEventNotificationMode
  getClassSignature := getClassSignature
  getClassMethods := getClassMethods
  getMethodName := getMethodName
  setBreakpoint := setBreakpoint
  deallocate := deallocate

end Host

end Rendezvous.Simulation

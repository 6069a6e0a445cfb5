import LayeredConfig.Configuration

/-! Deployment roles, and the properties that each needs. A check goes through all properties of
its role and logs every one that is missing or in conflict. -/

namespace LayeredConfig

inductive Role where
  | client
  | admin
  | oracle
  | worker
  | mini
deriving DecidableEq, Repr

namespace Role

def all : List Role := [client, admin, oracle, worker, mini]

def name : Role → Text
  | client => "client"
  | admin => "admin"
  | oracle => "oracle"
  | worker => "worker"
  | mini => "mini"

def ofName? (name : Text) : Option Role := all.find? fun r => r.name = name

def ofValue : Value → Except Fault Role
  | .text t =>
    match ofName? t with
    | some r => .ok r
    | none => .error (.notRole t.quoted)
  | v =>
    match v.literal? with
    | some t => .error (.notRole t)
    | none => .error .tooManyDigits

def clientKeys : List Text :=
  [Setting.applicationName, .accumuloUser, .accumuloPassword, .accumuloInstance].map Setting.key

/-- What must not be set where the store of data is started along. -/
def miniForbiddenKeys : List Text :=
  [Setting.accumuloUser, .accumuloPassword, .accumuloInstance, .accumuloZookeepers,
    .instanceZookeepers].map Setting.key

/-- Where a check reads and what it logs to. -/
structure Inspection where
  store : Store
  env : Environment
  channel : Channel

namespace Inspection

/-- Whether a key is held and reads as a text that is not empty. -/
def isSet (i : Inspection) (key : Text) : Except Fault Bool :=
  if i.store.contains key then
    (i.store.getText i.env key none).map fun t => t.any fun t => !t.isEmpty
  else .ok false

def requireSet (i : Inspection) (key : Text) : Logged Bool := do
  if ← .quiet (i.isSet key) then return true
  .write i.channel .info (key ++ (" is not set" : Text))
  return false

def requireUnset (i : Inspection) (key : Text) : Logged Bool := do
  if ← .quiet (i.isSet key) then
    .write i.channel .info (key ++ (" should not be set" : Text))
    return false
  return true

def allOf (test : Text → Logged Bool) : List Text → Logged Bool
  | [] => return true
  | key :: rest => do
    let here ← test key
    let there ← allOf test rest
    return here && there

def checkClient (i : Inspection) : Logged Bool := allOf i.requireSet clientKeys

def checkAdmin (i : Inspection) : Logged Bool := do
  let client ← i.checkClient
  let table ← i.requireSet Setting.accumuloTable.key
  return client && table

def conflictMessage : Text :=
  ("Client properties should not be set in your configuration if MiniFluo is configured to " : Text)
    ++ ("start its own accumulo (indicated by " : Text) ++ Setting.miniStartAccumulo.key
    ++ (" being set to true)" : Text)

/-- A store of data that is started along leaves no room for a connection to another one. -/
def checkEmbedded (i : Inspection) : Logged Bool := do
  let valid ← allOf i.requireUnset miniForbiddenKeys
  if !valid then .write i.channel .error conflictMessage
  return valid

/-- Without a store of its own, the role needs what all others need. -/
def checkAttached (i : Inspection) : Logged Bool := do
  let client ← i.checkClient
  let admin ← i.checkAdmin
  let oracle ← i.checkClient
  let worker ← i.checkClient
  return client && admin && oracle && worker

def checkMini (i : Inspection) : Logged Bool :=
  match i.store.get i.env .miniStartAccumulo with
  | .ok v => if v.isVoid then i.checkAttached else i.checkEmbedded
  | .error fault =>
    if fault.isConfiguration then do
      let message ← .quiet fault.text
      .write i.channel .error message
      return false
    else .quiet (.error fault)

end Inspection

def check (role : Role) (i : Inspection) : Logged Bool :=
  match role with
  | client | oracle | worker => i.checkClient
  | admin => i.checkAdmin
  | mini => i.checkMini

end Role

end LayeredConfig

import Ucentral.Proto.CfgSafety
import Ucentral.Lib.JsonRead

/-! `proto_handle`: one text of the gateway, from the parse to the handler of its method.

    A request is refused if a member is missing; whether the members are strings and how long they
    are is a different matter. What the handlers do is modelled as far as they use the strings of the
    request; a request that is handed to one is noted. -/

namespace Ucentral.Proto
open CJson Inet Router Plat Parse

/-! ### The handlers -/

/-- The methods that have a handler of their own. -/
inductive Method
  | configure | ping | reboot | reenroll | factory | rtty | upgrade | telemetry | script | generic
  deriving DecidableEq, Repr

/-- The chain of `strcmp` on the method. -/
def methodOf (method : String) : Method :=
  if method = "configure" then .configure
  else if method = "ping" then .ping
  else if method = "reboot" then .reboot
  else if method = "reenroll" then .reenroll
  else if method = "factory" then .factory
  else if method = "rtty" then .rtty
  else if method = "upgrade" then .upgrade
  else if method = "telemetry" then .telemetry
  else if method = "script" then .script
  else .generic

/-- `struct plat_rtty_cfg`. -/
structure RttyCfg where
  id : String := ""
  passwd : String := ""
  serial : String := ""
  server : String := ""
  token : String := ""
  user : String := ""
  port : ℕ := 0
  timeout : ℕ := 0

/-- `strcpy` into a field of 64 bytes. -/
def rttyField (params : Ptr) (name : String) (set : String → RttyCfg → RttyCfg) :
    Parser RttyCfg Unit := do
  copy (getStringValue (getItem params name)) 64
  Parser.fill (set (strOf (getItem params name)))

/-- The members that `rtty_parse` asks for, in its order. -/
def rttyMembers : List String :=
  ["serial", "token", "id", "server", "port", "user", "timeout", "password"]

/-- `rtty_parse`. -/
def rttyParse (params : Ptr) : Parser RttyCfg Unit := do
  forM rttyMembers fun name => need (getItem params name).isSome
  rttyField params "id" fun s c => { c with id := s }
  rttyField params "password" fun s c => { c with passwd := s }
  rttyField params "serial" fun s c => { c with serial := s }
  rttyField params "server" fun s c => { c with server := s }
  rttyField params "token" fun s c => { c with token := s }
  rttyField params "user" fun s c => { c with user := s }
  Parser.fill fun c => { c with
    port := (getNumberValue (getItem params "port")).toUInt 16
    timeout := (getNumberValue (getItem params "timeout")).toUInt 16 }

/-- `rtty_handle`. -/
def rttyHandle (params : Ptr) : Parser Unit Unit := do
  let _ ← Parser.scratch {} (rttyParse params)

/-- `configure_handle`, up to the parsed configuration. -/
def configureRequest (ports : Ports) (params : Ptr) : Parser Unit Unit := do
  let config := getItem params "config"
  need ((getItem params "uuid").isSome && (getItem params "serial").isSome && config.isSome)
  let _ ← Parser.scratch {} (cfgParse ports config)

/-- `reboot_handle`, `reenroll_handle` and `factory_handle` only ask for the serial number. -/
def serialHandle (params : Ptr) : Parser Unit Unit := need (getItem params "serial").isSome

def rebootHandle : Ptr → Parser Unit Unit := serialHandle

def reenrollHandle : Ptr → Parser Unit Unit := serialHandle

def factoryHandle : Ptr → Parser Unit Unit := serialHandle

/-- `upgrade_handle`; the address goes to the download as it is, the signature may be missing. -/
def upgradeHandle (params : Ptr) : Parser Unit Unit := do
  let uri := getItem params "uri"
  need (getItem params "serial").isSome
  need uri.isSome
  need (isString uri)
  text (getStringValue uri)

/-- `telemetry_handle`: an interval other than 0 asks for types. -/
def telemetryHandle (params : Ptr) : Parser Unit Unit := do
  let interval := getItem params "interval"
  let off := interval.isNone || (getNumberValue interval).isZero
  need ((getItem params "serial").isSome && (off || (getItem params "types").isSome))

/-- `script_handle` and `script_plat_handle`. -/
def scriptHandle (params : Ptr) : Parser Unit Unit := do
  let script := getItem params "script"
  let type := getItem params "type"
  let uri := getItem params "uri"
  need (isString (getItem params "serial") && isString type &&
    optNumber (getItem params "timeout") && optString uri)
  text (getStringValue type)
  need (strOf type == "diagnostic" || isString script && strOf type == "shell")
  Parser.when uri.isSome (text (getStringValue uri))
  Parser.when (strOf type == "shell") (text (getStringValue script))

def handler (ports : Ports) (params : Ptr) : Method → Parser Unit Unit
  | .configure => configureRequest ports params
  | .ping => pure ()
  | .reboot => rebootHandle params
  | .reenroll => reenrollHandle params
  | .factory => factoryHandle params
  | .rtty => rttyHandle params
  | .upgrade => upgradeHandle params
  | .telemetry => telemetryHandle params
  | .script => scriptHandle params
  | .generic => pure ()

/-! ### The dispatcher -/

/-- The members that a call must have, whatever they are. -/
def hasShape (obj : Json) : Bool :=
  let method := getItem (some obj) "method"
  (getItem (some obj) "jsonrpc").isSome &&
    (method.isSome || (getItem (some obj) "error").isSome) &&
    !(method.isSome && (getItem (some obj) "params").isNone)

/-- `proto_handle_blob`, over the requests handed to a handler so far. -/
def protoHandleBlob (ports : Ports) (obj : Json) : Parser (List Json) Unit := do
  let ver := getItem (some obj) "jsonrpc"
  let method := getItem (some obj) "method"
  need (hasShape obj)
  text (getStringValue ver)
  need (strOf ver == "2.0")
  Parser.when method.isSome (do
    text (getStringValue method)
    Parser.fill fun calls => calls ++ [obj]
    let _ ← Parser.scratch () (handler ports (getItem (some obj) "params")
      (methodOf (strOf method))))

/-- `proto_handle`. -/
def protoHandle (cJsonParse : List Char → Option (Json × List Char)) (ports : Ports)
    (cmd : List Char) : Parser (List Json) Unit :=
  match cJsonParse cmd with
  | none => need false
  | some (obj, _) => protoHandleBlob ports obj

/-! ### What is checked -/

end Ucentral.Proto

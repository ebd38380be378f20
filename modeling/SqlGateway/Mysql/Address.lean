import SqlGateway.Number.Numeral
import SqlGateway.Text.Search
import SqlGateway.Text.Utf8

/-!
# MySQL addresses

The address of a server is a URL whose query holds settings of the connection. Settings that do not
exist and values that do not fit are refused before anything is sent.
-/
namespace SqlGateway.Mysql

/-- What is wrong with an address. -/
inductive AddressError where
  | unsupportedScheme (scheme : String)
  | unknownParameter (name : String)
  | invalidValue (name value : String)
  /-- At least so many connections are to be kept, and at most so many. -/
  | invalidBounds (least greatest : Nat)
  | incomplete
  deriving DecidableEq, Repr

def AddressError.text : AddressError → String
  | .unsupportedScheme scheme => s!"Unsupported connection URL scheme `{scheme}'"
  | .unknownParameter name => s!"Unknown connection URL parameter `{name}'"
  | .invalidValue name value => s!"Invalid value `{value}' for connection URL parameter `{name}'"
  | .invalidBounds least greatest =>
    s!"Invalid pool constraints: pool_min ({least}) > pool_max ({greatest})"
  | .incomplete => "Invalid or incomplete connection URL"

/-- What a setting takes. -/
inductive SettingKind where
  | count
  /-- A count of 32 bits. -/
  | shortCount
  | flag
  | compression
  | anyText
  deriving DecidableEq, Repr

def settings : List (String × SettingKind) :=
  [("pool_min", .count), ("pool_max", .count), ("inactive_connection_ttl", .count),
    ("ttl_check_interval", .count), ("conn_ttl", .count), ("abs_conn_ttl", .count),
    ("abs_conn_ttl_jitter", .count), ("tcp_keepalive", .shortCount), ("max_allowed_packet", .count),
    ("wait_timeout", .count), ("enable_cleartext_plugin", .flag), ("reset_connection", .flag),
    ("tcp_nodelay", .flag), ("stmt_cache_size", .count), ("prefer_socket", .flag),
    ("secure_auth", .flag), ("client_found_rows", .flag), ("socket", .anyText),
    ("compression", .compression), ("require_ssl", .flag), ("verify_ca", .flag),
    ("verify_identity", .flag), ("built_in_roots", .flag)]

def SettingKind.accepts (k : SettingKind) (value : String) : Bool :=
  match k with
  | .count => (Number.unsigned64? value.toList).isSome
  | .shortCount => (Number.unsigned64? value.toList).any (· < 4294967296)
  | .flag => value == "true" || value == "false"
  | .compression =>
    ["fast", "on", "true", "best"].contains value ||
      (value.toList.length == 1 && value.toList.all Number.isDigit)
  | .anyText => true

def hexDigit? (c : Char) : Option Nat :=
  if Number.isDigit c then some (c.toNat - '0'.toNat)
  else
    let l := c.toLower
    if 'a' ≤ l && l ≤ 'f' then some (l.toNat - 'a'.toNat + 10) else none

/-- The bytes that a part of a query writes. -/
def queryBytes : List Char → List UInt8
  | [] => []
  | '%' :: a :: b :: rest =>
    match hexDigit? a, hexDigit? b with
    | some a, some b => UInt8.ofNat (16 * a + b) :: queryBytes rest
    | _, _ => Text.encode "%" ++ queryBytes (a :: b :: rest)
  | '+' :: rest => Text.encode " " ++ queryBytes rest
  | c :: rest => Text.encode (String.singleton c) ++ queryBytes rest
termination_by cs => cs.length

def queryText (cs : List Char) : String := Text.decodeLossy (queryBytes cs)

/-- The settings that a query writes. -/
def querySettings (query : List Char) : List (String × String) :=
  (((String.ofList query).splitToList (· == '&')).filter (· != "")).map fun part =>
    (queryText (part.toList.takeWhile (· != '=')),
      queryText ((part.toList.dropWhile (· != '=')).drop 1))

def checkSetting (setting : String × String) : Except AddressError Unit :=
  match settings.find? (·.1 == setting.1) with
  | none => .error (.unknownParameter setting.1)
  | some (_, kind) =>
    if kind.accepts setting.2 then .ok () else .error (.invalidValue setting.1 setting.2)

/-- The last count given for a setting, or its own. -/
def countOf (settings : List (String × String)) (name : String) (own : Nat) : Nat :=
  ((settings.reverse.find? (·.1 == name)).bind fun s => Number.unsigned64? s.2.toList).getD own

/-- Whether an address can be used. -/
def checkAddress (url : String) : Except AddressError Unit := do
  let some (scheme, rest) := Text.splitOnce [':', '/', '/'] url.toList | throw .incomplete
  let scheme := String.ofList (Text.lower scheme)
  if scheme ≠ "mysql" then throw (.unsupportedScheme scheme)
  let beforeFragment := rest.takeWhile (· != '#')
  let authority := beforeFragment.takeWhile fun c => c != '/' && c != '?'
  if authority.isEmpty then throw .incomplete
  let given := querySettings ((beforeFragment.dropWhile (· != '?')).drop 1)
  given.forM checkSetting
  let (least, greatest) := (countOf given "pool_min" 10, countOf given "pool_max" 100)
  if greatest < least then throw (.invalidBounds least greatest)

end SqlGateway.Mysql

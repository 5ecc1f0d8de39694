import LanguageClient.Config.Error
import LanguageClient.Text.Blank
import LanguageClient.Text.Numeral

/-!
# `LanguageClient.Config.Address`: TCP addresses

An address is `host:port`, `:port` or a port alone. The last colon counts, so an
IPv6 host may stand without brackets; brackets around the host are dropped. An
empty host is the loopback address. A port is a number from 1 to 65535.

- `Address`: a host and a port.
- `Address.parse`: the address that a text denotes.
-/

set_option autoImplicit false

namespace LanguageClient

/-- Where a server listens. -/
structure Address where
  host : String
  port : UInt16
  deriving DecidableEq, Repr

namespace Address

/-- The loopback host. -/
def loopback : String := "127.0.0.1"

/-- Where the Beef language server listens by default. -/
def default : Address := ⟨loopback, 5556⟩

/-- The address as `host:port`. -/
def display (a : Address) : String := a.host ++ ":" ++ String.ofList (Text.decimal a.port.toNat)

/-- A square bracket. -/
def isBracket (c : Char) : Bool := c == '[' || c == ']'

/-- The host and the port of a text without blanks around it, as they stand. -/
def cut (s : List Char) : List Char × List Char :=
  match Text.splitLast? ':' s with
  | some (host, port) => (Text.strip isBracket host, port)
  | none => ([], s)

/-- The address that a text denotes. -/
def parse (text : String) : Except ConfigError Address :=
  let (host, port) := cut (Text.trim text.toList)
  match Text.readUnsigned Text.maxWord16 port with
  | none => .error (.invalidAddress text "port must be a number between 1 and 65535")
  | some 0 => .error (.invalidAddress text "port must be non-zero")
  | some n => .ok ⟨if host.isEmpty then loopback else String.ofList host, UInt16.ofNat n⟩

end Address

end LanguageClient

import AsmServer.Uri.Percent
import AsmServer.Url.Address
import AsmServer.Url.Domain

/-!
# Hosts

The host of a web URL is a domain or an address. A domain is spelled in ASCII, and when
its last label is numeric the whole domain must be an address. Other schemes may name
their hosts as they like.
-/

namespace AsmServer

/-- A host. -/
inductive Url.Host where
  | name (text : Text)
  | ipv4 (address : Ipv4)
  | ipv6 (address : Ipv6)
  deriving DecidableEq, Repr

namespace Url.Host

/-- Spelling of a host. -/
def text : Host → Text
  | name text => text
  | ipv4 address => address.text
  | ipv6 address => '[' :: address.text ++ [']']

/-- ASCII characters that no host holds, because they are delimiters elsewhere. -/
def isDelimiter (c : Char) : Bool :=
  c ∈ ['\x00', '\t', '\n', '\r', ' ', '#', '/', ':', '<', '>', '?', '@', '[', '\\', ']', '^', '|']

/-- Characters that no domain holds. -/
def isOutOfDomain (c : Char) : Bool :=
  isDelimiter c || c.toNat < 0x20 || c = '%' || c.toNat = 0x7F

/-- The labels of a domain but for an empty one behind the last dot. -/
def labels (domain : Text) : List Text :=
  let labels := domain.splitOn '.'
  if labels.getLast? = some [] then labels.dropLast else labels

/-- Read a domain. -/
def readDomain? (t : Text) : Option Host := do
  let domain ← asciiDomain? (Percent.decode t)
  if domain = [] ∨ domain.any isOutOfDomain then none
  else if (labels domain).getLast?.any Ipv4.isNumeric then
    (Ipv4.ofLabels? (labels domain)).map ipv4
  else some (name domain)

/-- Read the name of a host that is no domain. -/
def readName? (t : Text) : Option Host :=
  if t.any isDelimiter then none
  else some (name (Percent.escapeUnless (fun c => ' ' ≤ c && c ≤ '~') t))

/-- Read a host, which is a domain or not. An address of 128 bits stands in brackets. -/
def read? (isDomain : Bool) (t : Text) : Option Host :=
  match t with
  | '[' :: rest => (((Text.beforeTail? [']'] rest).bind Ipv6.read?).map ipv6)
  | _ => if isDomain then readDomain? t else readName? t

end Url.Host

end AsmServer

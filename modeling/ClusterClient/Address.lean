/-!
# Hosts and addresses

A `Host` is an IP address in its canonical text, so two hosts are equal exactly when their texts
are; `::ffff:10.0.0.1` and `10.0.0.1` are different hosts. An `Address` is a host with a port. The
text of an address puts a host that holds a colon in square brackets (`Address.text`), and
`Address.ofText?` reads that text back.
-/

namespace ClusterClient

/-- An IP address, in its canonical text. -/
structure Host where
  text : String
  deriving DecidableEq, Repr, Inhabited

/-- Whether the host is written with colons, as hosts of version 6 are. -/
def Host.hasColon (h : Host) : Bool :=
  h.text.toList.contains ':'

/-- A host with a port. -/
structure Address where
  host : Host
  port : UInt16
  deriving DecidableEq, Repr, Inhabited

namespace Address

/-- The text of an address: host, colon, port, with brackets around a host that holds colons. -/
def text (a : Address) : String :=
  if a.host.hasColon then
    "[" ++ a.host.text ++ "]:" ++ a.port.toNat.repr
  else
    a.host.text ++ ":" ++ a.port.toNat.repr

instance : ToString Address := ⟨text⟩

/-- The number a list of decimal digits writes. -/
def digitsValue? : List Char → Option Nat
  | [] => none
  | cs => cs.foldl (fun acc c =>
      acc.bind fun n => if c.isDigit then some (10 * n + (c.toNat - 48)) else none) (some 0)

/-- Splits characters at the last colon. -/
def splitLastColon? (cs : List Char) : Option (List Char × List Char) :=
  let port := (cs.reverse.takeWhile (· ≠ ':')).reverse
  let rest := cs.reverse.dropWhile (· ≠ ':')
  match rest with
  | [] => none
  | _ :: host => some (host.reverse, port)

/-- Drops the square brackets around a host, if there are any. -/
def unbracket (cs : List Char) : List Char :=
  match cs with
  | '[' :: rest => if rest.getLast? = some ']' then rest.dropLast else cs
  | _ => cs

/-- Reads the text of an address. -/
def ofText? (s : String) : Option Address := do
  let (host, port) ← splitLastColon? s.toList
  let n ← digitsValue? port
  if n < UInt16.size then
    some ⟨⟨String.ofList (unbracket host)⟩, n.toUInt16⟩
  else
    none

end Address

end ClusterClient

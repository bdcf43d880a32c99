import NatBehavior.Address.NumbersAndDots
import NatBehavior.Address.Reader
import NatBehavior.Network.Machine

/-! What names resolve to without a name server: addresses to themselves, and the machine's own
name to the loopback address. -/
namespace NatBehavior

/-- A failed look-up, told with the resolver's reason. -/
def lookupFailure (reason : String) : IoError :=
  ⟨.uncategorized, "failed to lookup address information: " ++ reason⟩

def unknownName : IoError := lookupFailure "Name or service not known"

/-- A name that would end early where a zero byte ends texts. -/
def nameWithNul : IoError := ⟨.invalidInput, "file name contained an unexpected NUL byte"⟩

/-- Scopes are numbered, and where one is needed it may also be told by the interface's name. -/
def isScope (ip : Ipv6) (scope : List Char) : Bool :=
  (Numeral.read? 4294967295 scope).isSome
    || (ip.needsScope && scope = Machine.interfaceName.toList)

/-- The addresses of a name that is an address. Besides the usual notation that is the one of
numbers and dots, and a version 6 address with a scope, which is dropped. -/
def literalName? (name : List Char) : Option (Except IoError (List Ip)) :=
  match Ip.ofText? name <|> (Ipv4.ofNumbersAndDots? name).map .v4 with
  | some ip => some (.ok [ip])
  | none =>
    match Reader.all Ipv6.reader (name.takeWhile (· ≠ '%')) with
    | none => none
    | some ip =>
      if isScope ip ((name.dropWhile (· ≠ '%')).drop 1) then some (.ok [.v6 ip])
      else some (.error unknownName)

/-- The machine's own name is read in either case. -/
def localNames (name : String) : Except IoError (List Ip) :=
  if name.toList.contains (Char.ofNat 0) then .error nameWithNul
  else if name.toLower = "localhost" then .ok [.v4 ⟨127, 0, 0, 1⟩]
  else match literalName? name.toList with
    | some answer => answer
    | none =>
      .error (if name.isEmpty then unknownName
        else lookupFailure "Temporary failure in name resolution")

end NatBehavior

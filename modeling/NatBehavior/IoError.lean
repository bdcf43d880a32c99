/-! Failures of input and output: what kind of failure it was, and how it is told. -/
namespace NatBehavior

inductive IoKind where
  | addrInUse | addrNotAvailable | alreadyExists | argumentListTooLong | brokenPipe
  | connectionAborted | connectionRefused | connectionReset | crossesDevices | deadlock
  | directoryNotEmpty | executableFileBusy | fileTooLarge | filesystemLoop | hostUnreachable
  | inProgress | interrupted | invalidData | invalidFilename | invalidInput | isADirectory
  | networkDown | networkUnreachable | notADirectory | notConnected | notFound | notSeekable
  | other | outOfMemory | permissionDenied | quotaExceeded | readOnlyFilesystem | resourceBusy
  | staleNetworkFileHandle | storageFull | timedOut | tooManyLinks | uncategorized
  | unexpectedEof | unsupported | wouldBlock | writeZero
deriving DecidableEq, Repr

namespace IoKind

/-- Every kind with its name and its description. -/
def catalogue : List (IoKind × String × String) := [
  (.addrInUse, "AddrInUse", "address in use"),
  (.addrNotAvailable, "AddrNotAvailable", "address not available"),
  (.alreadyExists, "AlreadyExists", "entity already exists"),
  (.argumentListTooLong, "ArgumentListTooLong", "argument list too long"),
  (.brokenPipe, "BrokenPipe", "broken pipe"),
  (.connectionAborted, "ConnectionAborted", "connection aborted"),
  (.connectionRefused, "ConnectionRefused", "connection refused"),
  (.connectionReset, "ConnectionReset", "connection reset"),
  (.crossesDevices, "CrossesDevices", "cross-device link or rename"),
  (.deadlock, "Deadlock", "deadlock"),
  (.directoryNotEmpty, "DirectoryNotEmpty", "directory not empty"),
  (.executableFileBusy, "ExecutableFileBusy", "executable file busy"),
  (.fileTooLarge, "FileTooLarge", "file too large"),
  (.filesystemLoop, "FilesystemLoop",
    "filesystem loop or indirection limit (e.g. symlink loop)"),
  (.hostUnreachable, "HostUnreachable", "host unreachable"),
  (.inProgress, "InProgress", "in progress"),
  (.interrupted, "Interrupted", "operation interrupted"),
  (.invalidData, "InvalidData", "invalid data"),
  (.invalidFilename, "InvalidFilename", "invalid filename"),
  (.invalidInput, "InvalidInput", "invalid input parameter"),
  (.isADirectory, "IsADirectory", "is a directory"),
  (.networkDown, "NetworkDown", "network down"),
  (.networkUnreachable, "NetworkUnreachable", "network unreachable"),
  (.notADirectory, "NotADirectory", "not a directory"),
  (.notConnected, "NotConnected", "not connected"),
  (.notFound, "NotFound", "entity not found"),
  (.notSeekable, "NotSeekable", "seek on unseekable file"),
  (.other, "Other", "other error"),
  (.outOfMemory, "OutOfMemory", "out of memory"),
  (.permissionDenied, "PermissionDenied", "permission denied"),
  (.quotaExceeded, "QuotaExceeded", "quota exceeded"),
  (.readOnlyFilesystem, "ReadOnlyFilesystem", "read-only filesystem or storage medium"),
  (.resourceBusy, "ResourceBusy", "resource busy"),
  (.staleNetworkFileHandle, "StaleNetworkFileHandle", "stale network file handle"),
  (.storageFull, "StorageFull", "no storage space"),
  (.timedOut, "TimedOut", "timed out"),
  (.tooManyLinks, "TooManyLinks", "too many links"),
  (.uncategorized, "Uncategorized", "uncategorized error"),
  (.unexpectedEof, "UnexpectedEof", "unexpected end of file"),
  (.unsupported, "Unsupported", "unsupported"),
  (.wouldBlock, "WouldBlock", "operation would block"),
  (.writeZero, "WriteZero", "write zero")]

def entry? (kind : IoKind) : Option (IoKind × String × String) :=
  catalogue.find? (·.1 = kind)

def name (kind : IoKind) : String := (kind.entry?.map (·.2.1)).getD ""

def description (kind : IoKind) : String := (kind.entry?.map (·.2.2)).getD ""

def ofName? (name : String) : Option IoKind :=
  (catalogue.find? (·.2.1 = name)).map (·.1)

theorem isSome_entry? (kind : IoKind) : kind.entry?.isSome := by cases kind <;> decide

end IoKind

structure IoError where
  kind : IoKind
  message : String
deriving DecidableEq, Repr

/-- A failure told by the description of its kind. -/
def IoError.ofKind (kind : IoKind) : IoError := ⟨kind, kind.description⟩

/-- Failures that the operating system reports by number. -/
inductive OsError where
  | noSuchFile | permissionDenied | noSuchDevice | notADirectory | isADirectory
  | invalidArgument | nameTooLong | messageTooLong | addressFamily | addressInUse
  | addressNotAvailable | networkUnreachable
deriving DecidableEq, Repr

namespace OsError

def number : OsError → Nat
  | noSuchFile => 2
  | permissionDenied => 13
  | noSuchDevice => 19
  | notADirectory => 20
  | isADirectory => 21
  | invalidArgument => 22
  | nameTooLong => 36
  | messageTooLong => 90
  | addressFamily => 97
  | addressInUse => 98
  | addressNotAvailable => 99
  | networkUnreachable => 101

def catalogue : List OsError := [noSuchFile, permissionDenied, noSuchDevice, notADirectory,
  isADirectory, invalidArgument, nameTooLong, messageTooLong, addressFamily, addressInUse,
  addressNotAvailable, networkUnreachable]

def ofNumber? (n : Nat) : Option OsError := catalogue.find? (·.number = n)

theorem ofNumber?_number (e : OsError) : ofNumber? e.number = some e := by cases e <;> rfl

def label : OsError → String
  | noSuchFile => "No such file or directory"
  | permissionDenied => "Permission denied"
  | noSuchDevice => "No such device"
  | notADirectory => "Not a directory"
  | isADirectory => "Is a directory"
  | invalidArgument => "Invalid argument"
  | nameTooLong => "File name too long"
  | messageTooLong => "Message too long"
  | addressFamily => "Address family not supported by protocol"
  | addressInUse => "Address already in use"
  | addressNotAvailable => "Cannot assign requested address"
  | networkUnreachable => "Network is unreachable"

/-- Failures without a kind of their own are uncategorized. -/
def kind : OsError → IoKind
  | noSuchFile => .notFound
  | permissionDenied => .permissionDenied
  | noSuchDevice => .uncategorized
  | notADirectory => .notADirectory
  | isADirectory => .isADirectory
  | invalidArgument => .invalidInput
  | nameTooLong => .invalidFilename
  | messageTooLong => .uncategorized
  | addressFamily => .uncategorized
  | addressInUse => .addrInUse
  | addressNotAvailable => .addrNotAvailable
  | networkUnreachable => .networkUnreachable

def toIoError (e : OsError) : IoError :=
  ⟨e.kind, e.label ++ " (os error " ++ toString e.number ++ ")"⟩

end OsError

end NatBehavior

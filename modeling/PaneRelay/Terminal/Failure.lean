/-! # Failures of system calls

A failed system call is known by its kind, by the number the system gave it (if it came from there)
and by a text.

* `IoKind`: the kinds, with their names and their default texts.
* `IoError.ofCode?`: the failures the system numbers. -/

namespace PaneRelay.Terminal

/-- **Kinds of failed system calls.** -/
inductive IoKind where
  | notFound | permissionDenied | connectionRefused | connectionReset | hostUnreachable
  | networkUnreachable | connectionAborted | notConnected | addrInUse | addrNotAvailable
  | networkDown | brokenPipe | alreadyExists | wouldBlock | notADirectory | isADirectory
  | directoryNotEmpty | readOnlyFilesystem | invalidInput | invalidData | timedOut | writeZero
  | storageFull | notSeekable | fileTooLarge | resourceBusy | deadlock | tooManyOpenFiles
  | invalidFilename | argumentListTooLong | interrupted | unsupported | unexpectedEof
  | outOfMemory | other | uncategorized
deriving DecidableEq, Repr

namespace IoKind

/-- Every kind. -/
def all : List IoKind :=
  [.notFound, .permissionDenied, .connectionRefused, .connectionReset, .hostUnreachable,
   .networkUnreachable, .connectionAborted, .notConnected, .addrInUse, .addrNotAvailable,
   .networkDown, .brokenPipe, .alreadyExists, .wouldBlock, .notADirectory, .isADirectory,
   .directoryNotEmpty, .readOnlyFilesystem, .invalidInput, .invalidData, .timedOut, .writeZero,
   .storageFull, .notSeekable, .fileTooLarge, .resourceBusy, .deadlock, .tooManyOpenFiles,
   .invalidFilename, .argumentListTooLong, .interrupted, .unsupported, .unexpectedEof,
   .outOfMemory, .other, .uncategorized]

/-- The name under which a kind is reported. -/
def name : IoKind → String
  | .notFound => "NotFound"
  | .permissionDenied => "PermissionDenied"
  | .connectionRefused => "ConnectionRefused"
  | .connectionReset => "ConnectionReset"
  | .hostUnreachable => "HostUnreachable"
  | .networkUnreachable => "NetworkUnreachable"
  | .connectionAborted => "ConnectionAborted"
  | .notConnected => "NotConnected"
  | .addrInUse => "AddrInUse"
  | .addrNotAvailable => "AddrNotAvailable"
  | .networkDown => "NetworkDown"
  | .brokenPipe => "BrokenPipe"
  | .alreadyExists => "AlreadyExists"
  | .wouldBlock => "WouldBlock"
  | .notADirectory => "NotADirectory"
  | .isADirectory => "IsADirectory"
  | .directoryNotEmpty => "DirectoryNotEmpty"
  | .readOnlyFilesystem => "ReadOnlyFilesystem"
  | .invalidInput => "InvalidInput"
  | .invalidData => "InvalidData"
  | .timedOut => "TimedOut"
  | .writeZero => "WriteZero"
  | .storageFull => "StorageFull"
  | .notSeekable => "NotSeekable"
  | .fileTooLarge => "FileTooLarge"
  | .resourceBusy => "ResourceBusy"
  | .deadlock => "Deadlock"
  | .tooManyOpenFiles => "TooManyOpenFiles"
  | .invalidFilename => "InvalidFilename"
  | .argumentListTooLong => "ArgumentListTooLong"
  | .interrupted => "Interrupted"
  | .unsupported => "Unsupported"
  | .unexpectedEof => "UnexpectedEof"
  | .outOfMemory => "OutOfMemory"
  | .other => "Other"
  | .uncategorized => "Uncategorized"

/-- What is said of a failure of which only the kind is known. -/
def text : IoKind → String
  | .notFound => "entity not found"
  | .permissionDenied => "permission denied"
  | .connectionRefused => "connection refused"
  | .connectionReset => "connection reset"
  | .hostUnreachable => "host unreachable"
  | .networkUnreachable => "network unreachable"
  | .connectionAborted => "connection aborted"
  | .notConnected => "not connected"
  | .addrInUse => "address in use"
  | .addrNotAvailable => "address not available"
  | .networkDown => "network down"
  | .brokenPipe => "broken pipe"
  | .alreadyExists => "entity already exists"
  | .wouldBlock => "operation would block"
  | .notADirectory => "not a directory"
  | .isADirectory => "is a directory"
  | .directoryNotEmpty => "directory not empty"
  | .readOnlyFilesystem => "read-only filesystem or storage medium"
  | .invalidInput => "invalid input parameter"
  | .invalidData => "invalid data"
  | .timedOut => "timed out"
  | .writeZero => "write zero"
  | .storageFull => "no storage space"
  | .notSeekable => "seek on unseekable file"
  | .fileTooLarge => "file too large"
  | .resourceBusy => "resource busy"
  | .deadlock => "deadlock"
  | .tooManyOpenFiles => "too many open files"
  | .invalidFilename => "invalid filename"
  | .argumentListTooLong => "argument list too long"
  | .interrupted => "operation interrupted"
  | .unsupported => "unsupported"
  | .unexpectedEof => "unexpected end of file"
  | .outOfMemory => "out of memory"
  | .other => "other error"
  | .uncategorized => "uncategorized error"

/-- The kind reported under a name. -/
def ofName? (s : String) : Option IoKind := all.find? (fun k => k.name == s)

end IoKind

/-- **A failed system call.** -/
structure IoError where
  /-- The kind of failure. -/
  kind : IoKind
  /-- The system's number for it, if it came from the system. -/
  code : Option Nat := none
  /-- What is said of it. -/
  text : String
deriving DecidableEq, Repr

namespace IoError

/-- A failure of which only the kind is known. -/
def ofKind (k : IoKind) : IoError := { kind := k, text := k.text }

/-- The numbers of the system with the kind and the text of each. -/
def codes : List (Nat × IoKind × String) :=
  [(1, .permissionDenied, "Operation not permitted"),
   (2, .notFound, "No such file or directory"),
   (4, .interrupted, "Interrupted system call"),
   (5, .uncategorized, "Input/output error"),
   (6, .uncategorized, "No such device or address"),
   (7, .argumentListTooLong, "Argument list too long"),
   (9, .uncategorized, "Bad file descriptor"),
   (11, .wouldBlock, "Resource temporarily unavailable"),
   (12, .outOfMemory, "Cannot allocate memory"),
   (13, .permissionDenied, "Permission denied"),
   (16, .resourceBusy, "Device or resource busy"),
   (17, .alreadyExists, "File exists"),
   (19, .uncategorized, "No such device"),
   (20, .notADirectory, "Not a directory"),
   (21, .isADirectory, "Is a directory"),
   (22, .invalidInput, "Invalid argument"),
   (23, .tooManyOpenFiles, "Too many open files in system"),
   (24, .tooManyOpenFiles, "Too many open files"),
   (27, .fileTooLarge, "File too large"),
   (28, .storageFull, "No space left on device"),
   (29, .notSeekable, "Illegal seek"),
   (30, .readOnlyFilesystem, "Read-only file system"),
   (32, .brokenPipe, "Broken pipe"),
   (35, .deadlock, "Resource deadlock avoided"),
   (36, .invalidFilename, "File name too long"),
   (39, .directoryNotEmpty, "Directory not empty"),
   (98, .addrInUse, "Address already in use"),
   (99, .addrNotAvailable, "Cannot assign requested address"),
   (100, .networkDown, "Network is down"),
   (101, .networkUnreachable, "Network is unreachable"),
   (103, .connectionAborted, "Software caused connection abort"),
   (104, .connectionReset, "Connection reset by peer"),
   (105, .uncategorized, "No buffer space available"),
   (106, .uncategorized, "Transport endpoint is already connected"),
   (107, .notConnected, "Transport endpoint is not connected"),
   (108, .uncategorized, "Cannot send after transport endpoint shutdown"),
   (110, .timedOut, "Connection timed out"),
   (111, .connectionRefused, "Connection refused"),
   (112, .uncategorized, "Host is down"),
   (113, .hostUnreachable, "No route to host")]

/-- The failure with a number of the system. -/
def ofCode? (code : Nat) : Option IoError :=
  (codes.lookup code).map fun (kind, text) =>
    { kind, code := some code, text := s!"{text} (os error {code})" }

/-- Nothing has the given name. -/
def noSuchFile : IoError :=
  { kind := .notFound, code := some 2, text := "No such file or directory (os error 2)" }

/-- The file may not be used in this way. -/
def permissionDenied : IoError :=
  { kind := .permissionDenied, code := some 13, text := "Permission denied (os error 13)" }

/-- The address is taken. -/
def addressInUse : IoError :=
  { kind := .addrInUse, code := some 98, text := "Address already in use (os error 98)" }

end IoError

end PaneRelay.Terminal

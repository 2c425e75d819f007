import PageSweep.Json.Fault

/-!
# Failures

What can go wrong, as causes. The wording of each is `Error.message`; a failure of the page transport and
one of the YAML notation say no more than that they happened.
-/

namespace PageSweep

open Number

/-- Failures of the file store. -/
inductive FileFault where
  | notFound
  | notADirectory
  | isADirectory
  | alreadyExists
  | directoryNotEmpty
  | invalidData
  | permissionDenied
  | resourceBusy
  | nameTooLong
  | nulInName
deriving DecidableEq, Repr

def FileFault.name : FileFault → String
  | notFound => "NotFound"
  | notADirectory => "NotADirectory"
  | isADirectory => "IsADirectory"
  | alreadyExists => "AlreadyExists"
  | directoryNotEmpty => "DirectoryNotEmpty"
  | invalidData => "InvalidData"
  | permissionDenied => "PermissionDenied"
  | resourceBusy => "ResourceBusy"
  | nameTooLong => "InvalidFilename"
  | nulInName => "InvalidInput"

/-- What the operating system says of a failure. -/
def FileFault.text : FileFault → String
  | notFound => "No such file or directory (os error 2)"
  | notADirectory => "Not a directory (os error 20)"
  | isADirectory => "Is a directory (os error 21)"
  | alreadyExists => "File exists (os error 17)"
  | directoryNotEmpty => "Directory not empty (os error 39)"
  | invalidData => "stream did not contain valid UTF-8"
  | permissionDenied => "Permission denied (os error 13)"
  | resourceBusy => "Device or resource busy (os error 16)"
  | nameTooLong => "File name too long (os error 36)"
  | nulInName => "file name contained an unexpected NUL byte"

inductive Error where
  | parse (text : String)
  | remoteLoad (url : String) (status : Nat)
  | selector (text : String)
  | action (reason : String)
  | chainTooDeep (depth : Nat)
  | styleSheetDetached
  | handlerNotFound (index : Nat)
  | transport
  | file (fault : FileFault)
  | yaml
  | json (e : Json.Error)
deriving DecidableEq, Repr

def Error.message : Error → String
  | parse text => "schema parse failed: " ++ text
  | remoteLoad url status => "failed to fetch schema from " ++ url ++ ": HTTP " ++ natText status
  | selector text => "unsupported selector: " ++ text
  | action reason => "action failed: " ++ reason
  | chainTooDeep depth => "action chain exceeded depth " ++ natText depth
  | styleSheetDetached => "injected stylesheet is not attached"
  | handlerNotFound index => "handler index out of range: " ++ natText index
  | transport => "Http"
  | file fault => fault.name
  | yaml => "Yaml"
  | json e => e.message

end PageSweep

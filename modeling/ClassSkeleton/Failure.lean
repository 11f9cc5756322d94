import ClassSkeleton.Markup.Search

/-!
Everything that can go wrong between the class catalog and a written skeleton. A failed catalog
stops a run; every other failure concerns one class and is reported under its name.
-/
namespace ClassSkeleton

/-- Why an operation on files failed. -/
inductive IoCause where
  | notFound
  | notDirectory
  | isDirectory
  | exists
  | busy
  | nameTooLong
  /-- A path with a null character in it. -/
  | nullInPath
  | notUtf8
  /-- Something else stands where the directory is needed. -/
  | occupied (path : Text)
  /-- No directory above the wanted one could be made. -/
  | noTree
  | other (text : Text)
  deriving DecidableEq, Repr

def IoCause.message : IoCause → Text
  | .notFound => "No such file or directory (os error 2)".toList
  | .notDirectory => "Not a directory (os error 20)".toList
  | .isDirectory => "Is a directory (os error 21)".toList
  | .exists => "File exists (os error 17)".toList
  | .busy => "Device or resource busy (os error 16)".toList
  | .nameTooLong => "File name too long (os error 36)".toList
  | .nullInPath => "file name contained an unexpected NUL byte".toList
  | .notUtf8 => "stream did not contain valid UTF-8".toList
  | .occupied path => "Path exists but is not a directory: ".toList ++ path
  | .noTree => "failed to create whole tree".toList
  | .other text => text

inductive Failure where
  /-- A page could not be downloaded. -/
  | fetch (url reason : Text)
  /-- A page lacks a mark that it needs. -/
  | structural (entity detail : Text)
  /-- A page title opens with none of the known kinds. -/
  | unrecognizedKind (entity title : Text)
  /-- The list of classes is not to be had. -/
  | catalog (detail : Text)
  /-- The command line cannot be understood. -/
  | usage (detail : Text)
  /-- A qualified name has an empty segment. -/
  | invalidName (name : Text)
  | io (cause : IoCause)
  /-- A page made its reader cut outside the text or lose count of brackets. -/
  | fault (entity : Text) (cause : ScanError)
  deriving DecidableEq, Repr

namespace Failure

def message : Failure → Text
  | .fetch url reason => "fetch failed for ".toList ++ url ++ ": ".toList ++ reason
  | .structural entity detail =>
    entity ++ ": page structure not recognized (".toList ++ detail ++ [')']
  | .unrecognizedKind entity title =>
    entity ++ ": unrecognized kind in title ".toList ++ Text.quoted title
  | .catalog detail => "class catalog unavailable: ".toList ++ detail
  | .usage detail => detail
  | .invalidName name => "invalid qualified name: ".toList ++ Text.quoted name
  | .io cause => "IO error: ".toList ++ cause.message
  | .fault entity cause => entity ++ ": ".toList ++ cause.message

/-- A failed scan of the page of `entity`: a missing mark is a matter of the page, anything else
one of its reader. -/
def ofScan (entity : Text) : ScanError → Failure
  | .missing mark => .structural entity (ScanError.missing mark).message
  | cause => .fault entity cause

end Failure

end ClassSkeleton

import ClassSkeleton.Url.Host

/-!
Addresses in their parts, and the one text that each is written as.
-/
namespace ClassSkeleton

namespace Url

/-- Whose host is asked, and as whom. An empty password is none. -/
structure Authority where
  username : Text
  password : Text
  host : Option Host
  /-- The number of the service on the host, unless it is that of the scheme. -/
  service : Option Nat
  deriving DecidableEq, Repr

/-- What follows the authority: segments behind a slash each, or text without any structure. -/
inductive Location where
  | steps (segments : List Text)
  | flat (text : Text)
  deriving DecidableEq, Repr

end Url

structure Url where
  scheme : Text
  authority : Option Url.Authority
  location : Url.Location
  query : Option Text
  fragment : Option Text
  deriving DecidableEq, Repr

namespace Url

namespace Authority

def credentials (authority : Authority) : Text :=
  if authority.username.isEmpty && authority.password.isEmpty then []
  else
    authority.username ++
      (if authority.password.isEmpty then [] else ':' :: authority.password) ++ ['@']

def text (authority : Authority) : Text :=
  "//".toList ++ authority.credentials ++ (authority.host.map Host.text).getD [] ++
    (authority.service.map fun number => ':' :: Text.decimal number).getD []

/-- Can the user be told from the text? A user name that is no text tells nothing. -/
def hasUser (authority : Authority) : Bool :=
  (decodeText? authority.username).isSome &&
    (!authority.username.isEmpty ||
      (!authority.password.isEmpty && (decodeText? authority.password).isSome))

end Authority

def Location.text : Location → Text
  | .steps segments => segments.flatMap ('/' :: ·)
  | .flat text => text

/-- A dot segment keeps two slashes apart from the scheme when they are no sign of an authority. -/
def guard (url : Url) : Text :=
  match url.authority, url.location with
  | none, .steps ([] :: _ :: _) => "/.".toList
  | _, _ => []

def text (url : Url) : Text :=
  url.scheme ++ ':' :: (url.authority.map Authority.text).getD [] ++ url.guard ++
    url.location.text ++ (url.query.map ('?' :: ·)).getD [] ++
    (url.fragment.map ('#' :: ·)).getD []

/-- The address as it is shown to others: without the user, if there is one. -/
def anonymous (url : Url) : Url :=
  { url with
    authority := url.authority.map fun authority =>
      if authority.hasUser then { authority with username := [], password := [] }
      else authority }

end Url

end ClassSkeleton

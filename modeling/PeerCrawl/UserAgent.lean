set_option autoImplicit false

/-! # User agents

The name by which a node introduces itself. `UserAgent.ofText` accepts the form `/name:version/`
with a name and a version that are not empty and hold no colon. -/

namespace PeerCrawl

/-- The text by which a node introduces itself. -/
structure UserAgent where
  text : String
deriving DecidableEq

/-- Why a text is no user agent. -/
inductive UserAgentError where
  | invalidFormat
  | missingName
  | missingVersion
deriving DecidableEq

def UserAgentError.message : UserAgentError → String
  | .invalidFormat => "User agent must follow format '/name:version/'"
  | .missingName => "User agent name component cannot be empty"
  | .missingVersion => "User agent version component cannot be empty"

namespace UserAgent

/-- What stands between a slash at the start and another one at the end. -/
def insideSlashes? : List Char → Option (List Char)
  | '/' :: rest => if rest.getLast? = some '/' then some rest.dropLast else none
  | _ => none

/-- Check the form `name:version`. -/
def checkParts (cs : List Char) : Except UserAgentError Unit :=
  let name := cs.takeWhile (· ≠ ':')
  match cs.dropWhile (· ≠ ':') with
  | [] => .error .invalidFormat
  | _ :: version =>
    if ':' ∈ version then .error .invalidFormat
    else if name = [] then .error .missingName
    else if version = [] then .error .missingVersion
    else .ok ()

/-- The user agent that a text writes. -/
def ofText (s : String) : Except UserAgentError UserAgent :=
  match insideSlashes? s.toList with
  | none => .error .invalidFormat
  | some parts => (checkParts parts).map fun _ => ⟨s⟩

/-- The user agent with a name and a version, which are not checked. -/
def ofParts (name version : String) : UserAgent := ⟨"/" ++ name ++ ":" ++ version ++ "/"⟩

/-- How this crawler introduces itself. -/
def standard : UserAgent := ofParts "bitcoin-seeder" "0.1.0"

end UserAgent

end PeerCrawl

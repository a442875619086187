import SupplyPlan.Text.Basic

namespace SupplyPlan.Web

/-- A path of the interface with its parameters. -/
inductive Route where
  | proposals
  | productSchedule (product : Text)
  | requirements
  | requirement (id : Text)
  /-- A page that describes the interface. -/
  | documentation
  deriving DecidableEq, Repr

/-- The parts of a path between slashes. -/
def segments : List CodePoint → List Text
  | [] => [""]
  | p :: rest =>
    if p = .char '/' then "" :: segments rest
    else
      match segments rest with
      | [] => [⟨[p]⟩]
      | first :: others => ⟨p :: first.points⟩ :: others

namespace Route

/-- A line break at the end of a path counts only where it belongs to a parameter. -/
def withoutLineBreak (part : Text) : Text :=
  match part.points.reverse with
  | .char '\n' :: rest => ⟨rest.reverse⟩
  | _ => part

/-- The pages that lie directly under the root. -/
def pages : List (Text × Route) :=
  [("proposals", proposals), ("requirements", requirements), ("docs", documentation),
   ("redoc", documentation), ("openapi.json", documentation)]

/-- A parameter is a part of the path that is not empty. -/
def ofPath? (path : Text) : Option Route :=
  match segments path.points with
  | [root, page] =>
    if root = "" then (pages.find? (·.1 = withoutLineBreak page)).map (·.2) else none
  | [root, page, rest] =>
    if root = "" && page = "requirements" && rest ≠ "" then some (requirement rest)
    else if root = "" && page = "docs" && withoutLineBreak rest = "oauth2-redirect" then
      some documentation
    else none
  | [root, page, id, rest] =>
    if root = "" && page = "products" && id ≠ "" && withoutLineBreak rest = "schedule" then
      some (productSchedule id)
    else none
  | _ => none

def methods : Route → List Text
  | proposals | productSchedule _ => ["POST"]
  | requirements | requirement _ => ["GET"]
  | documentation => ["GET", "HEAD"]

end Route

/-- Where a request goes. -/
inductive Target where
  | route (r : Route)
  | wrongMethod
  /-- The path without its trailing slashes is a route. -/
  | redirect
  | unknown
  deriving DecidableEq, Repr

def withoutTrailingSlashes (path : Text) : Text :=
  ⟨(path.points.reverse.dropWhile (· = .char '/')).reverse⟩

def Target.of (method path : Text) : Target :=
  match Route.ofPath? path with
  | some r => if r.methods.contains method then .route r else .wrongMethod
  | none =>
    if path ≠ "/" && path.points.getLast? = some (.char '/')
        && (Route.ofPath? (withoutTrailingSlashes path)).isSome then .redirect
    else .unknown

end SupplyPlan.Web

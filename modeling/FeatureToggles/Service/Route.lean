/-!
# Routes

The paths that the service answers on, and the methods that it answers to there.
-/

namespace FeatureToggles

/-- What a path leads to. -/
inductive Route where
  | root
  | health
  | metrics
  | stats
  /-- The toggles of an account. -/
  | toggles (account : String)
  /-- The values of an account's toggles. -/
  | resolve (account : String)
  | parseRule
  | validateRules
  /-- A page about the service itself. -/
  | page
  deriving DecidableEq

namespace Route

/-- The methods that are answered on a route. -/
def methods : Route → List String
  | resolve _ => ["POST"]
  | parseRule => ["POST"]
  | validateRules => ["POST"]
  | page => ["GET", "HEAD"]
  | _ => ["GET"]

/-- The routes of fixed paths. -/
def fixed : List (String × Route) :=
  [("/", root), ("/health", health), ("/metrics", metrics), ("/stats", stats),
    ("/rules/parse", parseRule), ("/rules/validate", validateRules), ("/openapi.json", page)]

/-- The pages that only a local service shows. -/
def localPages : List (String × Route) :=
  [("/docs", page), ("/docs/oauth2-redirect", page), ("/redoc", page)]

/-- The routes that end in an account. -/
def byAccount : List (String × (String → Route)) :=
  [("/resolve/", resolve), ("/toggles/", toggles)]

/-- The last segment of a path that starts with the given characters. It is not empty. -/
def segmentAfter? (start path : List Char) : Option String :=
  let rest := path.drop start.length
  if start.isPrefixOf path && !rest.isEmpty && !rest.contains '/' then some (String.ofList rest)
  else none

/-- Whether a path is a fixed one. A line break at the end of the path does not count. -/
def isAt (path : List Char) (fixedPath : String) : Bool :=
  path = fixedPath.toList || path = fixedPath.toList ++ ['\n']

/-- The route of a path. -/
def ofChars? (isLocal : Bool) (path : List Char) : Option Route :=
  ((if isLocal then fixed ++ localPages else fixed).find? (isAt path ·.1)).map (·.2)
    |>.or (byAccount.findSome? fun (start, route) => (segmentAfter? start.toList path).map route)

@[inherit_doc ofChars?] def ofPath? (isLocal : Bool) (path : String) : Option Route :=
  ofChars? isLocal path.toList

/-- The path that differs in the slashes at its end: without them, or with one if it has none. -/
def otherSlashes (path : List Char) : List Char :=
  if path.getLast? = some '/' then (path.reverse.dropWhile (· = '/')).reverse else path ++ ['/']

/-- Whether a path without a route has one when the slashes at its end are put right. -/
def redirects (isLocal : Bool) (path : String) : Bool :=
  path ≠ "/" && (ofChars? isLocal (otherSlashes path.toList)).isSome

end Route

end FeatureToggles

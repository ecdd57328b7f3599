import FluentShapes.Locale

/-! # Requests for resources -/

namespace FluentShapes

/-- A resource by its path. The locale tells which language the resource is in. -/
structure Request where
  path : String
  locale : Option Locale
deriving DecidableEq

/-- What is wrong with a query. -/
inductive QueryFault where
  | empty
  | noValue (pair : String)
  | repeatedLocale
deriving DecidableEq

def QueryFault.reason : QueryFault → String
  | empty => "empty query"
  | noValue pair => "expected key=value, found '" ++ pair ++ "'"
  | repeatedLocale => "locale given more than once"

inductive RequestError where
  | emptyPath (request : String)
  | malformedQuery (request : String) (fault : QueryFault)
  | unknownParameter (request : String) (key : String)
  | missingLocale (path : String)
  | invalidLocale (path : String) (tag : String)
deriving DecidableEq

def RequestError.message : RequestError → String
  | emptyPath request => "Resource request '" ++ request ++ "' has no path"
  | malformedQuery request fault =>
      "Resource request '" ++ request ++ "' has a malformed query: " ++ fault.reason
  | unknownParameter request key =>
      "Resource request '" ++ request ++ "' has unknown parameter '" ++ key ++ "'"
  | missingLocale path => "Resource request for " ++ path ++ " is missing a locale tag"
  | invalidLocale path tag =>
      "Resource request for " ++ path ++ " has invalid locale tag '" ++ tag ++ "'"

namespace Request

/-- Split a text at the first `c`; `none` if it has none. -/
def splitAt? (c : Char) (s : List Char) : Option (List Char × List Char) :=
  match s.dropWhile (· ≠ c) with
  | [] => none
  | _ :: after => some (s.takeWhile (· ≠ c), after)

/-- Take in one `key=value` pair of a query. -/
def addPair (request path : String) (found : Option Locale) (pair : List Char) :
    Except RequestError (Option Locale) :=
  match splitAt? '=' pair with
  | none => .error (.malformedQuery request (.noValue (String.ofList pair)))
  | some (key, value) =>
      if String.ofList key ≠ "locale" then .error (.unknownParameter request (String.ofList key))
      else if found.isSome then .error (.malformedQuery request .repeatedLocale)
      else if value.isEmpty then .error (.missingLocale path)
      else
        match Locale.parse? (String.ofList value) with
        | some l => .ok (some l)
        | none => .error (.invalidLocale path (String.ofList value))

def parseQuery (request path : String) (query : List Char) : Except RequestError (Option Locale) :=
  if query.isEmpty then .error (.malformedQuery request .empty)
  else (query.splitOn '&').foldlM (addPair request path) none

/-- A path, and behind a question mark the locale. -/
def parse (request : String) : Except RequestError Request :=
  let (path, query) :=
    match splitAt? '?' request.toList with
    | some (path, query) => (path, some query)
    | none => (request.toList, none)
  let path := String.ofList path
  if path.isEmpty then .error (.emptyPath request)
  else
    match query with
    | none => .ok ⟨path, none⟩
    | some query => (parseQuery request path query).map (Request.mk path)

def display (r : Request) : String :=
  match r.locale with
  | some l => r.path ++ "?locale=" ++ l.tag
  | none => r.path

def requireLocale (r : Request) : Except RequestError Locale :=
  match r.locale with
  | some l => .ok l
  | none => .error (.missingLocale r.path)

/-- The last segment of the path. -/
def fileName (r : Request) : String :=
  String.ofList ((r.path.toList.splitOnP fun c ↦ c = '/' || c = '\\').getLast?.getD [])

end Request

end FluentShapes

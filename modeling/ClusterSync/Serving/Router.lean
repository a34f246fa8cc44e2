import ClusterSync.Telemetry.Histogram
import ClusterSync.Text.Blank

/-!
# Pages

What is answered to those who ask for metrics, liveness and readiness. Each has a page of its own
that can be asked for by `GET`, or by `HEAD` without its contents.
-/

namespace ClusterSync.Serving

inductive Page
  | metrics | healthz | readyz
  deriving DecidableEq, Repr

/-- What is answered to a request. -/
structure Reply where
  status : Nat
  contentType : Option String := none
  body : String := ""
  deriving DecidableEq, Repr

namespace Page

/-- The page at a path. -/
def ofPath? : String → Option Page
  | "/metrics" => some .metrics
  | "/healthz" => some .healthz
  | "/readyz" => some .readyz
  | _ => none

/-- A page's contents. Only the page of readiness depends on whether everything runs. -/
def reply (ready : Bool) (m : DetailedMetrics) : Page → Reply
  | .metrics => ⟨200, some "text/plain; version=0.0.4; charset=utf-8", m.page⟩
  | .healthz => { status := 200 }
  | .readyz => { status := if ready then 200 else 503 }

end Page

/-- The characters of a scheme's name. -/
def inScheme (c : Char) : Bool := c.isAlphanum || c = '+' || c = '-' || c = '.'

/-- What follows the scheme of a target that names one. -/
def afterScheme? (target : List Char) : Option (List Char) :=
  match target.dropWhile inScheme with
  | ':' :: '/' :: '/' :: rest => some rest
  | _ => none

/-- The path of a request's target, without a query. A target with a scheme names a host before
the path, which is then `/` if it is left out; a target that is a host alone has no page. -/
def pathOf (target : String) : String :=
  let withQuery :=
    match afterScheme? target.toList with
    | none => target.toList
    | some rest => rest.dropWhile fun c => c ≠ '/' && c ≠ '?' && c ≠ '#'
  let path := withQuery.takeWhile fun c => c ≠ '?' && c ≠ '#'
  if path = [] then "/" else String.ofList path

/-- The answer to a request. -/
def respond (ready : Bool) (m : DetailedMetrics) (method target : String) : Reply :=
  match Page.ofPath? (pathOf target) with
  | none => { status := 404 }
  | some page =>
    match method with
    | "GET" => page.reply ready m
    | "HEAD" => { page.reply ready m with body := "" }
    | _ => { status := 405 }

/-- What is said if another program listens where the pages are to be served. -/
def addressTaken : String := "Address already in use (os error 98)"

end ClusterSync.Serving

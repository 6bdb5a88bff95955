import K8StorageX.ApiProgram

/-!
# Errors of the Go code

Errors are API errors or texts, wrapped in the contexts the code adds.
-/

namespace K8StorageX.GoErrors

open ApiProgram

/-- A Go error with the context it has been wrapped in. -/
inductive GoError where
  /-- An error of the Kubernetes API. -/
  | api (cause : ApiError)
  /-- An error that only has a text. -/
  | text (message : String)
  /-- `errors.Wrap` and `fmt.Errorf` with `%w`. -/
  | wrapped (context : String) (cause : GoError)
  deriving DecidableEq, Repr

/-- Text of an API error. -/
def apiMessage : ApiError → String
  | .notFound => "not found"
  | .alreadyExists => "already exists"
  | .conflict => "the object has been modified; please apply your changes to the latest version"
  | .other text => text

/-- Text of an error as `Error()` yields it. -/
def GoError.message : GoError → String
  | .api cause => apiMessage cause
  | .text message => message
  | .wrapped context cause => context ++ ": " ++ cause.message

end K8StorageX.GoErrors

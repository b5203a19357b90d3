import Lakehouse.Common.Text
/-!
# The exceptions the program raises and catches

One constructor for each class the source tells apart, with the text or
the code a caller reads. `PyError.isValueError` is what an
`except ValueError` clause catches: the program's own boundary, storage
and signature errors subclass `ValueError`, and so do the library's
Unicode and JSON decoding errors.
-/

namespace Lakehouse

/-- Which of the two replay checks of an append raised. The source's
message does not say; the model records it. -/
inductive CheckSite where
  | beforeMerge | afterMerge
  deriving DecidableEq, Repr

inductive PyError where
  | valueError (message : Text)
  /-- `ValueError`: "`key_column` reuse conflicts with retained immutable
  content", with the sorted conflicting keys. -/
  | reuseConflict (keyColumn : String) (keys : List Text) (site : CheckSite)
  | unicodeError
  /-- `json.JSONDecodeError`, with its `msg`. -/
  | jsonDecodeError (message : Text)
  | boundaryViolation (message : Text)
  | storageConfiguration (message : Text)
  /-- `SignatureVerificationError`, with its reason code. -/
  | signatureRejected (reason message : Text)
  | keyError (key : Text)
  | indexError
  | typeError
  | attributeError
  | overflowError
  | zeroDivisionError
  | runtimeError (message : Text)
  | deadLetterError (message : Text)
  /-- `StatsApiError`, with its HTTP status. -/
  | statsApiError (status : ℕ) (detail : Text)
  /-- `AccessDeniedError`, a `PermissionError`. -/
  | accessDenied (message : Text)
  | kafkaException
  /-- `deltalake.exceptions.CommitFailedError`. -/
  | commitFailed
  /-- `deltalake.exceptions.TableNotFoundError`. -/
  | tableNotFound
  /-- `pyarrow.lib.ArrowNotImplementedError`. -/
  | arrowNotImplemented
  /-- Any other exception of the storage or broker clients. -/
  | clientError (message : Text)
  deriving DecidableEq, Repr

/-- What `except ValueError` catches. -/
def PyError.isValueError : PyError → Bool
  | valueError _ | reuseConflict _ _ _ | unicodeError | jsonDecodeError _ | boundaryViolation _
  | storageConfiguration _ | signatureRejected _ _ => true
  | _ => false

/-- What a library may raise: everything but the program's own classes. -/
def PyError.isForeign : PyError → Bool
  | reuseConflict _ _ _ | boundaryViolation _ | storageConfiguration _ | signatureRejected _ _
  | deadLetterError _ | statsApiError _ _ | accessDenied _ => false
  | _ => true

/-- `str(error)`. What the libraries word themselves has no text here. -/
def PyError.text : PyError → Text
  | valueError m | boundaryViolation m | storageConfiguration m | runtimeError m
  | deadLetterError m | clientError m | statsApiError _ m | accessDenied m => m
  | signatureRejected _ m => m
  | reuseConflict keyColumn keys _ =>
    lit keyColumn ++ lit " reuse conflicts with retained immutable content: " ++
      Text.join (lit ", ") keys
  | _ => []

end Lakehouse

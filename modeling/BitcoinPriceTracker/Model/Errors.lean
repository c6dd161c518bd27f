import BitcoinPriceTracker.Model.SourceContract

namespace BitcoinPriceTracker

/-- A status code as the http crate admits it. -/
structure StatusCode where
  code : ℕ
  admitted : 100 ≤ code ∧ code ≤ 999
  deriving DecidableEq

namespace StatusCode

def isSuccess (status : StatusCode) : Bool := 200 ≤ status.code && status.code < 300

def display (P : Platform) (status : StatusCode) : String :=
  toString status.code ++ " " ++ (P.canonicalReason status.code).getD "<unknown status code>"

end StatusCode

/-- A duration, or a system time. -/
inductive RetryAfter
  | delay (duration : ℕ)
  | at (time : ℤ)
  deriving DecidableEq

/-- The bytes that `HeaderValue::to_str` accepts: visible ASCII, space and tab. -/
def isVisibleAscii (byte : UInt8) : Bool := (32 ≤ byte.toNat && byte.toNat < 127) || byte.toNat = 9

def isAsciiDigit (byte : UInt8) : Bool := 48 ≤ byte.toNat && byte.toNat ≤ 57

/-- `str::trim` on text that `to_str` accepted, where only space and tab are white space. -/
def trimAscii (bytes : List UInt8) : List UInt8 :=
  let blank := fun byte : UInt8 => byte.toNat = 32 || byte.toNat = 9
  ((bytes.dropWhile blank).reverse.dropWhile blank).reverse

def decimalValue (digits : List UInt8) : ℕ :=
  digits.foldl (fun value digit => 10 * value + (digit.toNat - 48)) 0

def asciiText (bytes : List UInt8) : String := String.ofList (bytes.map fun byte => Char.ofNat byte.toNat)

/-- `RetryAfter::parse` on the bytes of a header value. -/
def RetryAfter.parse (P : Platform) (value : List UInt8) : Option RetryAfter :=
  if !value.all isVisibleAscii then none
  else
    let text := trimAscii value
    if text ≠ [] && text.all isAsciiDigit then
      let seconds := decimalValue text
      if seconds < 2 ^ 64 then some (.delay (Duration.fromSecs seconds)) else none
    else (P.parseHttpDate (asciiText text)).map .at

inductive ProviderErrorKind
  | timeout (error : ReqwestError)
  | transport (error : ReqwestError)
  | http (status : StatusCode) (retryAfter : Option RetryAfter)
  | invalidPayload (reason : String) (cause : Option JsonError)
  | invalidPrice (field reason : String)
  deriving DecidableEq

structure ProviderError where
  provider : UpstreamSource
  kind : ProviderErrorKind
  deriving DecidableEq

namespace ProviderError

/-- `ProviderError::from_reqwest`. -/
def fromReqwest (provider : UpstreamSource) (error : ReqwestError) : ProviderError :=
  ⟨provider, if error.isTimeout then .timeout error else .transport error⟩

/-- The error of `decode_response` for a status other than success and its `Retry-After` header. -/
def fromStatus (P : Platform) (provider : UpstreamSource) (status : StatusCode)
    (header : Option (List UInt8)) : ProviderError :=
  ⟨provider, .http status (header.bind (RetryAfter.parse P))⟩

def invalidJson (provider : UpstreamSource) (cause : JsonError) : ProviderError :=
  ⟨provider, .invalidPayload "invalid JSON" (some cause)⟩

def invalidPayload (provider : UpstreamSource) (reason : String) : ProviderError :=
  ⟨provider, .invalidPayload reason none⟩

def invalidPrice (provider : UpstreamSource) (field reason : String) : ProviderError :=
  ⟨provider, .invalidPrice field reason⟩

/-- The `Display` text of an error, shown to clients and stored with the snapshot. -/
def display (P : Platform) (error : ProviderError) : String :=
  error.provider.name ++ " " ++
    match error.kind with
    | .timeout _ => "request timed out"
    | .transport _ => "request failed"
    | .http status retryAfter =>
      "HTTP error: " ++ status.display P ++
        match retryAfter with
        | some (.delay duration) => "; retry after " ++ toString (Duration.asSecs duration) ++ "s"
        | some (.at time) => "; retry at " ++ P.fmtHttpDate time
        | none => ""
    | .invalidPayload reason _ => "response invalid: " ++ reason
    | .invalidPrice field reason => "price invalid at " ++ field ++ ": " ++ reason

def category (error : ProviderError) : ErrorCategory :=
  match error.kind with
  | .timeout _ => .timeout
  | .transport _ => .transport
  | .http _ _ => .http
  | .invalidPayload _ _ => .invalidPayload
  | .invalidPrice _ _ => .invalidPrice

def httpStatus (error : ProviderError) : Option ℕ :=
  match error.kind with
  | .http status _ => some status.code
  | _ => none

/-- `ProviderError::health_error`. -/
def healthError (P : Platform) (error : ProviderError) : SourceError where
  category := error.category
  message := error.display P
  httpStatus := error.httpStatus

end ProviderError

/-- The client-safe `Display` of a `RefreshError`, whatever storage text it holds. -/
def refreshErrorDisplay (_storage : String) : String := "Failed to store refreshed price data"

end BitcoinPriceTracker

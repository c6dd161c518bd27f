import BitcoinPriceTracker.Model.Errors

namespace BitcoinPriceTracker

/-- A lower-case hexadecimal digit. -/
def hexDigit (value : ℕ) : UInt8 := .ofNat (if value < 10 then 48 + value else 87 + value)

/-- `{:016x}`. -/
def hex16 (hash : UInt64) : List UInt8 :=
  (List.range 16).map fun place => hexDigit (hash.toNat / 16 ^ (15 - place) % 16)

/-- `W/"{:016x}"` of the hash of the body. -/
def etagOf (hash : UInt64) : List UInt8 := [87, 47, 34] ++ hex16 hash ++ [34]

/-- `str::strip_prefix("W/")`. -/
def stripWeak : List UInt8 → Option (List UInt8)
  | 87 :: 47 :: rest => some rest
  | _ => none

/-- `str::trim_start_matches("W/")`. -/
def trimStartWeak : List UInt8 → List UInt8
  | 87 :: 47 :: rest => trimStartWeak rest
  | tag => tag

/-- The test on one part of a header value. -/
def tagMatches (current part : List UInt8) : Bool :=
  let tag := trimAscii part
  tag = [42] || (stripWeak tag).getD tag = current

/-- The test on a header value, which fails where `to_str` does. -/
def valueMatches (current value : List UInt8) : Bool :=
  value.all isVisibleAscii && (value.splitOn 44).any (tagMatches current)

structure AssetResponse where
  status : ℕ
  contentType : Option String
  body : String
  etag : List UInt8
  deriving DecidableEq

/-- `embedded_asset` on the `If-None-Match` lines of a request. `hash` is what `DefaultHasher` makes of a text. -/
def embeddedAsset (hash : String → UInt64) (ifNoneMatch : List (List UInt8)) (body contentType : String) :
    AssetResponse :=
  let etag := etagOf (hash body)
  let current := trimStartWeak etag
  if ifNoneMatch.any (valueMatches current) then ⟨304, none, "", etag⟩ else ⟨200, some contentType, body, etag⟩

/-- The embedded files. -/
structure AssetFiles where
  dashboardCss : String
  cybercoreCss : String
  dashboardJs : String

def dashboardCss (hash : String → UInt64) (files : AssetFiles) (ifNoneMatch : List (List UInt8)) : AssetResponse :=
  embeddedAsset hash ifNoneMatch files.dashboardCss "text/css; charset=utf-8"

def cybercoreCss (hash : String → UInt64) (files : AssetFiles) (ifNoneMatch : List (List UInt8)) : AssetResponse :=
  embeddedAsset hash ifNoneMatch files.cybercoreCss "text/css; charset=utf-8"

def dashboardJs (hash : String → UInt64) (files : AssetFiles) (ifNoneMatch : List (List UInt8)) : AssetResponse :=
  embeddedAsset hash ifNoneMatch files.dashboardJs "text/javascript; charset=utf-8"

end BitcoinPriceTracker

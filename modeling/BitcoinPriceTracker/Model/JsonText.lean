import BitcoinPriceTracker.Model.Basic

/-!
# JSON text

What `serde_json` reads and writes, for a platform on which runs can be executed. Texts are in ASCII, numbers have no
exponent, and `\u` stands for no surrogate.
-/

namespace BitcoinPriceTracker

namespace JsonText

/-! ### Lists of strings -/

/-- The escape of a character. `\x22` is the quotation mark and `\x5c` the backslash. -/
def escape (ch : Char) : List Char :=
  if ch = '\x22' then ['\x5c', '\x22']
  else if ch = '\x5c' then ['\x5c', '\x5c']
  else if ch = '\x08' then ['\x5c', 'b']
  else if ch = '\x0c' then ['\x5c', 'f']
  else if ch = '\n' then ['\x5c', 'n']
  else if ch = '\r' then ['\x5c', 'r']
  else if ch = '\t' then ['\x5c', 't']
  else if ch.toNat < 32 then ['\x5c', 'u', '0', '0', Nat.digitChar (ch.toNat / 16), Nat.digitChar (ch.toNat % 16)]
  else [ch]

def quoted (text : String) : List Char := '\x22' :: (text.toList.flatMap escape ++ ['\x22'])

/-- The rest of a list after its first string. -/
def furtherStrings : List String → List Char
  | [] => [']']
  | text :: rest => ',' :: (quoted text ++ furtherStrings rest)

def ofStrings : List String → List Char
  | [] => ['[', ']']
  | text :: rest => '[' :: (quoted text ++ furtherStrings rest)

/-! ### Parsing -/

def skipBlank (chars : List Char) : List Char :=
  chars.dropWhile fun ch => ch = ' ' || ch = '\n' || ch = '\r' || ch = '\t'

def hexValue (ch : Char) : Option ℕ :=
  if ch.isDigit then some (ch.toNat - 48)
  else if 'a' ≤ ch && ch ≤ 'f' then some (ch.toNat - 87)
  else if 'A' ≤ ch && ch ≤ 'F' then some (ch.toNat - 55)
  else none

def hexCode (digits : List Char) : Option Char :=
  (digits.mapM hexValue).bind fun values =>
    let code := values.foldl (fun code digit => 16 * code + digit) 0
    if 0xd800 ≤ code && code < 0xe000 then none else some (Char.ofNat code)

/-- The character of an escape of one letter. -/
def unescape : Char → Option Char
  | '\x22' => some '\x22'
  | '\x5c' => some '\x5c'
  | '/' => some '/'
  | 'b' => some '\x08'
  | 'f' => some '\x0c'
  | 'n' => some '\n'
  | 'r' => some '\r'
  | 't' => some '\t'
  | _ => none

/-- A string after its first quotation mark. -/
def parseString : List Char → List Char → Option (String × List Char)
  | text, '\x22' :: rest => some (String.ofList text, rest)
  | text, '\x5c' :: 'u' :: a :: b :: c :: d :: rest =>
    (hexCode [a, b, c, d]).bind fun ch => parseString (text ++ [ch]) rest
  | text, '\x5c' :: letter :: rest => (unescape letter).bind fun ch => parseString (text ++ [ch]) rest
  | text, ch :: rest => if ch.toNat < 32 then none else parseString (text ++ [ch]) rest
  | _, [] => none

def digitsValue (digits : List Char) : ℕ := digits.foldl (fun value digit => 10 * value + (digit.toNat - 48)) 0

/-- Digits with an optional fraction. -/
def parseDecimal (chars : List Char) : Option (ℚ × List Char) :=
  let whole := chars.takeWhile Char.isDigit
  if whole = [] then none
  else
    match chars.dropWhile Char.isDigit with
    | '.' :: rest =>
      let part := rest.takeWhile Char.isDigit
      if part = [] then none
      else some ((digitsValue (whole ++ part) : ℚ) / (10 ^ part.length : ℕ), rest.dropWhile Char.isDigit)
    | rest => some (digitsValue whole, rest)

/-- A number without needless zeros in front. -/
def parseNumber : List Char → Option (Json × List Char)
  | '-' :: '0' :: ch :: rest =>
    if ch.isDigit then none else (parseDecimal ('0' :: ch :: rest)).map fun r => (.number (.round (-r.1)), r.2)
  | '-' :: rest => (parseDecimal rest).map fun r => (.number (.round (-r.1)), r.2)
  | '0' :: ch :: rest =>
    if ch.isDigit then none else (parseDecimal ('0' :: ch :: rest)).map fun r => (.number (.round r.1), r.2)
  | chars => (parseDecimal chars).map fun r => (.number (.round r.1), r.2)

mutual

/-- A value; every call takes one from the fuel. -/
def parseValue : ℕ → List Char → Option (Json × List Char)
  | 0, _ => none
  | fuel + 1, chars =>
    match skipBlank chars with
    | 'n' :: 'u' :: 'l' :: 'l' :: rest => some (.null, rest)
    | 't' :: 'r' :: 'u' :: 'e' :: rest => some (.bool true, rest)
    | 'f' :: 'a' :: 'l' :: 's' :: 'e' :: rest => some (.bool false, rest)
    | '\x22' :: rest => (parseString [] rest).map fun r => (.string r.1, r.2)
    | '[' :: rest =>
      match skipBlank rest with
      | ']' :: rest => some (.array [], rest)
      | rest => (parseEntries fuel rest).map fun r => (.array r.1, r.2)
    | '\x7b' :: rest =>
      match skipBlank rest with
      | '\x7d' :: rest => some (.object [], rest)
      | rest => (parseFields fuel rest).map fun r => (.object r.1, r.2)
    | rest => parseNumber rest

def parseEntries : ℕ → List Char → Option (List Json × List Char)
  | 0, _ => none
  | fuel + 1, chars =>
    (parseValue fuel chars).bind fun entry =>
      match skipBlank entry.2 with
      | ']' :: rest => some ([entry.1], rest)
      | ',' :: rest => (parseEntries fuel rest).map fun r => (entry.1 :: r.1, r.2)
      | _ => none

def parseFields : ℕ → List Char → Option (List (String × Json) × List Char)
  | 0, _ => none
  | fuel + 1, chars =>
    match skipBlank chars with
    | '\x22' :: rest =>
      (parseString [] rest).bind fun name =>
        match skipBlank name.2 with
        | ':' :: rest =>
          (parseValue fuel rest).bind fun entry =>
            match skipBlank entry.2 with
            | '\x7d' :: rest => some ([(name.1, entry.1)], rest)
            | ',' :: rest => (parseFields fuel rest).map fun r => ((name.1, entry.1) :: r.1, r.2)
            | _ => none
        | _ => none
    | _ => none

end

def parse (chars : List Char) : Option Json :=
  (parseValue (2 * chars.length + 2) chars).bind fun r => if skipBlank r.2 = [] then some r.1 else none

/-- `from_str::<Vec<String>>`. -/
def toStrings (chars : List Char) : Except JsonError (List String) :=
  match parse chars with
  | none => .error ⟨"expected value"⟩
  | some (.array entries) =>
    match entries.mapM Json.asStr with
    | some strings => .ok strings
    | none => .error ⟨"invalid type, expected a string"⟩
  | some _ => .error ⟨"invalid type, expected a sequence"⟩

/-! ### Round trip -/

lemma parseString_escape (text rest : List Char) (ch : Char) :
    parseString text (escape ch ++ rest) = parseString (text ++ [ch]) rest := by
  by_cases hcontrol : ch.toNat < 32
  · obtain ⟨n, hn, rfl⟩ : ∃ n, n < 32 ∧ ch = Char.ofNat n := ⟨ch.toNat, hcontrol, (Char.ofNat_toNat ch).symm⟩
    interval_cases n <;> rfl
  · unfold escape
    split_ifs with hquote hslash hb hf hn hr ht
    all_goals try (subst_vars; first | rfl | exact absurd (by decide) hcontrol)
    rw [List.singleton_append, parseString]
    · rw [if_neg hcontrol]
    · exact fun h => hquote h
    · intro a b c d rest' h
      exact absurd h hslash
    · intro letter rest' h
      exact absurd h hslash

lemma parseString_quoted (chars text rest : List Char) :
    parseString text (chars.flatMap escape ++ '\x22' :: rest) = some (String.ofList (text ++ chars), rest) := by
  induction chars generalizing text with
  | nil => simp [parseString]
  | cons ch chars ih =>
    rw [List.flatMap_cons, List.append_assoc, parseString_escape, ih, List.append_assoc, List.singleton_append]

lemma parseValue_quoted (fuel : ℕ) (text : String) (rest : List Char) :
    parseValue (fuel + 1) (quoted text ++ rest) = some (.string text, rest) := by
  have hstring : parseString [] (text.toList.flatMap escape ++ '\x22' :: rest) = some (text, rest) := by
    rw [parseString_quoted, List.nil_append, String.ofList_toList]
  have hquoted : quoted text ++ rest = '\x22' :: (text.toList.flatMap escape ++ '\x22' :: rest) := by
    simp [quoted]
  rw [hquoted, parseValue, show skipBlank ('\x22' :: _) = '\x22' :: _ from rfl]
  simp [hstring]

lemma parseEntries_strings (strings : List String) (text : String) {fuel : ℕ} (h : strings.length + 2 ≤ fuel) :
    parseEntries fuel (quoted text ++ furtherStrings strings) = some ((text :: strings).map .string, []) := by
  induction strings generalizing text fuel with
  | nil =>
    obtain ⟨rest, rfl⟩ : ∃ rest, fuel = rest + 1 + 1 := ⟨fuel - 2, by simp at h; omega⟩
    rw [parseEntries, parseValue_quoted]
    rfl
  | cons next strings ih =>
    obtain ⟨rest, rfl⟩ : ∃ rest, fuel = rest + 1 + 1 := ⟨fuel - 2, by simp at h; omega⟩
    have hfurther := ih next (show strings.length + 2 ≤ rest + 1 by simpa using h)
    rw [parseEntries, parseValue_quoted, Option.bind_some]
    change (parseEntries (rest + 1) (quoted next ++ furtherStrings strings)).map _ = _
    rw [hfurther]
    rfl

lemma length_furtherStrings (strings : List String) : strings.length + 1 ≤ (furtherStrings strings).length := by
  induction strings with
  | nil => exact le_rfl
  | cons text strings ih =>
    rw [furtherStrings, List.length_cons, List.length_cons, List.length_append]
    omega

lemma parse_ofStrings (strings : List String) : parse (ofStrings strings) = some (.array (strings.map .string)) := by
  cases strings with
  | nil => rfl
  | cons text strings =>
    have hlength := length_furtherStrings strings
    obtain ⟨fuel, hfuel⟩ : ∃ fuel, 2 * (ofStrings (text :: strings)).length + 2 = fuel + 1 := ⟨_, rfl⟩
    have hentries := parseEntries_strings strings text (show strings.length + 2 ≤ fuel by
      rw [ofStrings, List.length_cons, List.length_append] at hfuel
      omega)
    have hvalue : parseValue (fuel + 1) (ofStrings (text :: strings)) =
        (parseEntries fuel (quoted text ++ furtherStrings strings)).map fun r => (.array r.1, r.2) := rfl
    rw [parse, hfuel, hvalue, hentries]
    rfl

theorem toStrings_ofStrings (strings : List String) : toStrings (ofStrings strings) = .ok strings := by
  have hstrings : (strings.map Json.string).mapM Json.asStr = some strings := by
    induction strings with
    | nil => rfl
    | cons text strings ih => rw [List.map_cons, List.mapM_cons, ih]; rfl
  simp only [toStrings, parse_ofStrings, hstrings]

/-- The characters of a text in ASCII. -/
def ofBytes (bytes : List UInt8) : Option (List Char) :=
  bytes.mapM fun byte => if byte < 128 then some (Char.ofNat byte.toNat) else none

end JsonText

/-- A platform on which runs can be executed: `i64` seconds of monotonic time, no HTTP dates, and the numbers and the
JSON of the parser above. -/
def Platform.plain : Platform where
  range := ⟨Duration.fromSecs (2 ^ 63), by norm_num [Duration.fromSecs]⟩
  parseHttpDate _ := none
  parseHttpDate_nonneg h := by simp at h
  fmtHttpDate _ := ""
  canonicalReason
    | 429 => some "Too Many Requests"
    | 503 => some "Service Unavailable"
    | _ => none
  parseF64 text := ((JsonText.parseDecimal text.toList).filter fun r => r.2 = []).map fun r => .round r.1
  parseJson bytes :=
    match (JsonText.ofBytes bytes).bind JsonText.parse with
    | some value => .ok value
    | none => .error ⟨if bytes = [] then "EOF while parsing a value" else "expected value"⟩
  encodeStrings strings := String.ofList (JsonText.ofStrings strings)
  decodeStrings text := JsonText.toStrings text.toList
  decode_encode strings := by rw [String.toList_ofList, JsonText.toStrings_ofStrings]
  intoValues values := values
  intoValues_perm values := .refl values

end BitcoinPriceTracker

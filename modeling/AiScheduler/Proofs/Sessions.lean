/-
  **HOW LONG A LOGIN LASTS, AND WHAT IT OPENS.**

  For one hour the token of a login passes every endpoint its role is enough for; any token at
  all is accepted only under the signature of what it says.
-/
import AiScheduler.Cron.Grammar
import AiScheduler.Handler.Auth

namespace AiScheduler.Auth

open Cron

variable {codec : Codec} {claims : Claims}

/-- What HMAC, base64 and JSON do for these claims: no dots, and the claims come back. -/
structure Codec.Carries (codec : Codec) (claims : Claims) : Prop where
  mac : ∀ text, '.' ∉ codec.mac text
  encoded : ∀ text, '.' ∉ codec.encodeToString text
  back : (codec.decodeString (codec.encodeToString (codec.marshal claims))).bind codec.unmarshal
    = some claims

theorem sextet_ne_dot (n : Nat) : '.' ≠ sextet n := by
  have hdigits : ∀ i < 64, '.' ≠ alphabet.getD i 'A' := by decide +kernel
  exact hdigits _ (Nat.mod_lt n (by decide))

theorem dot_notMem_rawURLEncode (bytes : List Nat) : '.' ∉ rawURLEncode bytes := by
  fun_induction rawURLEncode bytes <;> simp_all [sextet_ne_dot]

theorem carries_jwtCodec (hash : List Char → List Nat)
    (h : (decodeText (encodeText (marshalClaims claims))).bind unmarshalClaims = some claims) :
    (jwtCodec hash).Carries claims where
  mac text := dot_notMem_rawURLEncode (hash text)
  encoded text := dot_notMem_rawURLEncode (text.toList.map Char.toNat)
  back := by
    dsimp only [jwtCodec]
    exact h

/-- A signed token says what was signed, until it expires. -/
theorem parseToken_signToken (h : codec.Carries claims) (now : Int) :
    parseToken codec now (signToken codec claims)
      = if now > claims.exp then .error "jwt: token expired" else .ok claims := by
  obtain ⟨payload, hdecode, hclaims⟩ := Option.bind_eq_some_iff.mp h.back
  have hsplit : ∀ a b c : List Char, '.' ∉ a → '.' ∉ b → '.' ∉ c →
      split '.' (a ++ '.' :: b ++ '.' :: c) = [a, b, c] := by
    intro a b c ha hb hc
    have hjoin : split '.' (['.'].intercalate [a, b, c]) = [a, b, c] := split_intercalate (by simp)
      (by simp [ha, hb, hc])
    simpa [List.intercalate] using hjoin
  unfold parseToken signToken
  rw [hsplit _ _ _ (h.encoded _) (h.encoded _) (h.mac _)]
  simp only [ne_eq, not_true_eq_false, if_false, hdecode, hclaims]

/-- The last of the three pieces signs the other two. -/
theorem signed_of_parseToken {now : Int} {token : List Char}
    (h : parseToken codec now token = .ok claims) :
    ∃ unsigned, token = unsigned ++ '.' :: codec.mac unsigned ∧ now ≤ claims.exp := by
  unfold parseToken at h
  split at h
  next header body sig hsplit =>
    split at h
    next => cases h
    next hsig =>
      refine ⟨header ++ '.' :: body, ?_, ?_⟩
      · rw [← not_not.mp hsig, ← intercalate_split '.' token, hsplit]
        simp [List.intercalate]
      · split at h
        next => cases h
        next payload _ =>
          split at h
          next => cases h
          next claims' _ =>
            split at h
            next => cases h
            next hexp =>
              cases h
              omega
  next => cases h

/-- The bearer token of a request is the one that is parsed. -/
theorem requestClaims_bearer (now : Int) {token : List Char} (hne : token ≠ [])
    (xTenantID : List Char) :
    requestClaims codec now { authorization := "Bearer ".toList ++ token, xTenantID }
      = (parseToken codec now token).mapError (fun _ => (401, "invalid or expired token")) := by
  have hbearer : HttpRequest.token { authorization := "Bearer ".toList ++ token, xTenantID }
      = token := rfl
  unfold requestClaims
  rw [hbearer, if_neg hne]
  cases parseToken codec now token <;> rfl

theorem signToken_ne_nil (codec : Codec) (claims : Claims) : signToken codec claims ≠ [] := by
  simp [signToken]

/-- The claims a login issues. -/
def issued (now : Int) (username password : String) : Claims where
  sub := username
  role := authenticateUser username password
  iat := now
  exp := now + 3600

/-- **A LOGIN LASTS AN HOUR AND OPENS WHAT ITS ROLE OPENS**: under any tenant header and at any
time, its token passes `requireAuth` exactly if the hour is not over and the role is enough.  No
token is accepted but under the signature of what it says, unexpired. -/
theorem session_of_login {now : Int} {username password : String} {token : List Char}
    (hlogin : login codec now username password = .ok token)
    (hcodec : codec.Carries (issued now username password)) :
    (∀ later minimumRole xTenantID, (∃ r, requireAuth codec later minimumRole
        { authorization := "Bearer ".toList ++ token, xTenantID } = .ok r)
          ↔ later ≤ now + 3600
            ∧ roleWeight minimumRole ≤ roleWeight (authenticateUser username password))
      ∧ ∀ later token' claims, parseToken codec later token' = .ok claims →
          ∃ unsigned, token' = unsigned ++ '.' :: codec.mac unsigned ∧ later ≤ claims.exp := by
  refine ⟨?_, fun _ _ _ => signed_of_parseToken⟩
  intro later minimumRole xTenantID
  have htoken : token = signToken codec (issued now username password) := by
    unfold login at hlogin
    dsimp only at hlogin
    split at hlogin
    next => cases hlogin
    next => exact (Except.ok.inj hlogin).symm
  have hparse := parseToken_signToken hcodec later
  rw [← htoken] at hparse
  have hne : token ≠ [] := htoken ▸ signToken_ne_nil codec _
  have hclaims := @requestClaims_bearer codec later token hne xTenantID
  unfold requireAuth
  rw [hclaims, hparse]
  by_cases hexp : later > now + 3600
  · rw [if_pos (show later > (issued now username password).exp from hexp)]
    simp [Except.mapError, hexp]
  · rw [if_neg (show ¬ later > (issued now username password).exp from hexp)]
    have hhour : later ≤ now + 3600 := by omega
    by_cases hrole : roleWeight (authenticateUser username password) < roleWeight minimumRole
    · simp [Except.mapError, issued, hrole]
    · simp [Except.mapError, issued, hrole, hhour, Nat.not_lt.mp hrole]

/-- The operator's token at the end of its hour, and a second later. -/
theorem session_of_operator :
    authenticateUser "operator" "operator123" = "operator" ∧ ∀ hash,
      (∃ r, requireAuth (jwtCodec hash) 3600 "viewer"
          { authorization := "Bearer ".toList ++ signToken (jwtCodec hash)
              (issued 0 "operator" "operator123") } = .ok r)
        ∧ ¬ ∃ r, requireAuth (jwtCodec hash) 3601 "viewer"
          { authorization := "Bearer ".toList ++ signToken (jwtCodec hash)
              (issued 0 "operator" "operator123") } = .ok r := by
  refine ⟨rfl, ?_⟩
  intro hash
  have hcodec : (jwtCodec hash).Carries (issued 0 "operator" "operator123") :=
    carries_jwtCodec hash (by decide +kernel)
  have hsession := (session_of_login (by rfl) hcodec).1
  exact ⟨(hsession 3600 "viewer" []).mpr (by decide), fun h =>
    absurd ((hsession 3601 "viewer" []).mp h).1 (by decide)⟩

end AiScheduler.Auth

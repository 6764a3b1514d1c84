import Mathlib.Data.UInt

/-!
# Authentication of RPC requests

`server/auth.rs`.  Verifying a token belongs to the `jwt` crate and is a parameter.
-/

namespace Mtransaction

structure JWT where
  iat : UInt64
  exp : UInt64
  pubkey : Option String
  partner : Option String
  deriving DecidableEq, Repr

def JWT.toString (jwt : JWT) : String :=
  -- a partner name is preferred to a public key
  match jwt.partner with
  | some partner => "JWT:partner:" ++ partner
  | none =>
    match jwt.pubkey with
    | some pubkey => "JWT:pubkey:" ++ pubkey
    | none => "JWT:Anonymous"

inductive Auth
  | jwt (claims : JWT)
  | allow (identifier : String)
  deriving DecidableEq, Repr

def Auth.toString : Auth → String
  | .jwt claims => claims.toString
  | .allow identifier => identifier

/-- The key loaded from `jwt_public_key_path`. -/
structure PublicKey where
  pem : List UInt8
  deriving DecidableEq, Repr

/-- `char::is_whitespace`: the code points with the property `White_Space`. -/
def isWhitespace (c : Char) : Bool :=
  let n := c.toNat
  (9 ≤ n && n ≤ 13) || n == 32 || n == 0x85 || n == 0xa0 || n == 0x1680 ||
    (0x2000 ≤ n && n ≤ 0x200a) || n == 0x2028 || n == 0x2029 || n == 0x202f || n == 0x205f ||
    n == 0x3000

def splitWhitespace (s : String) : List String :=
  ((s.toList.splitOnP isWhitespace).filter (· ≠ [])).map String.ofList

section Authenticate

-- `verify_with_key` checks a token's signature under a key and reads its claims.
variable (verifyWithKey : PublicKey → String → Except String JWT)

def authorizationHeaderAuth (publicKey : PublicKey) (header : String) : Except String Auth :=
  -- the iterator yields "Bearer", the token, and nothing after it
  let headerParts := splitWhitespace header
  if some "Bearer" ≠ headerParts[0]? then
    .error "Authorization header must start with 'Bearer '!"
  else if headerParts[2]?.isSome then
    .error "There must be no extra characters after Bearer token!"
  else
    match headerParts[1]? with
    | some token =>
      match verifyWithKey publicKey token with
      | .ok claims => .ok (.jwt claims)
      | .error err => .error err
    | none => .error "Bearer token is missing!"

def authenticate (publicKey : PublicKey) (header : Option String) : Except String Auth :=
  match header with
  | some header => authorizationHeaderAuth verifyWithKey publicKey header
  | none => .error "Request is not authenticated!"

end Authenticate

/-! ## Which headers authenticate -/

section Accepts

variable (verifyWithKey : PublicKey → String → Except String JWT) (publicKey : PublicKey)

/-- The parts of the header are `Bearer` and a token that verifies under the key and carries these
claims. -/
def BearerToken (header : Option String) (claims : JWT) : Prop :=
  ∃ text token, header = some text ∧ splitWhitespace text = ["Bearer", token] ∧
    verifyWithKey publicKey token = .ok claims

/-- The claims are valid at this time. -/
def JWT.LiveAt (claims : JWT) (now : UInt64) : Prop := claims.iat ≤ now ∧ now < claims.exp

instance (claims : JWT) (now : UInt64) : Decidable (claims.LiveAt now) :=
  inferInstanceAs (Decidable (_ ∧ _))

variable {verifyWithKey publicKey}

-- the three calls of `next` tell whether there are exactly two parts
theorem headerParts_eq_iff {parts : List String} {token : String} :
    parts = ["Bearer", token] ↔
      parts[0]? = some "Bearer" ∧ parts[1]? = some token ∧ parts[2]? = none := by
  constructor
  · rintro rfl
    exact ⟨rfl, rfl, rfl⟩
  · rintro ⟨hfirst, hsecond, hthird⟩
    match parts, hfirst, hsecond, hthird with
    | [first, second], hfirst, hsecond, _ =>
      rw [Option.some.inj hfirst, Option.some.inj hsecond]

theorem authorizationHeaderAuth_cases (header : String) :
    (∃ token claims, splitWhitespace header = ["Bearer", token] ∧
      verifyWithKey publicKey token = .ok claims ∧
      authorizationHeaderAuth verifyWithKey publicKey header = .ok (.jwt claims)) ∨
    ((∀ token claims, splitWhitespace header = ["Bearer", token] →
      verifyWithKey publicKey token ≠ .ok claims) ∧
      ∃ err, authorizationHeaderAuth verifyWithKey publicKey header = .error err) := by
  unfold authorizationHeaderAuth
  simp only [headerParts_eq_iff]
  split
  next hfirst =>
    exact .inr ⟨fun token claims hparts => absurd hparts.1.symm hfirst, _, rfl⟩
  next hfirst =>
    split
    next hthird =>
      refine .inr ⟨fun token claims hparts => ?_, _, rfl⟩
      rw [hparts.2.2] at hthird
      simp at hthird
    next hthird =>
      split
      next token hsecond =>
        cases hverify : verifyWithKey publicKey token with
        | ok claims =>
          refine .inl ⟨token, claims, ⟨(not_not.mp hfirst).symm, hsecond, ?_⟩, hverify, rfl⟩
          simpa using hthird
        | error err =>
          refine .inr ⟨fun token' claims hparts => ?_, err, rfl⟩
          obtain rfl : token = token' := Option.some.inj (hsecond.symm.trans hparts.2.1)
          simp [hverify]
      next hsecond =>
        refine .inr ⟨fun token claims hparts => ?_, _, rfl⟩
        simp [hsecond] at hparts

theorem bearerToken_of_authenticate {header : Option String} {auth : Auth}
    (h : authenticate verifyWithKey publicKey header = .ok auth) :
    ∃ claims, auth = .jwt claims ∧ BearerToken verifyWithKey publicKey header claims := by
  cases header with
  | none => simp [authenticate] at h
  | some text =>
    rw [authenticate] at h
    rcases authorizationHeaderAuth_cases text with
      ⟨token, claims, hparts, hverify, hok⟩ | ⟨-, err, herr⟩
    · exact ⟨claims, Except.ok.inj (h.symm.trans hok), text, token, rfl, hparts, hverify⟩
    · simp [herr] at h

/-- A request authenticates, with the claims of its token, exactly if its header is `Bearer` and one
token that verifies; nothing is asked of the time.  Every other request, also one without a header,
is refused. -/
theorem authenticate_iff (header : Option String) :
    (∀ claims, authenticate verifyWithKey publicKey header = .ok (.jwt claims) ↔
      BearerToken verifyWithKey publicKey header claims) ∧
    ((∀ claims, ¬ BearerToken verifyWithKey publicKey header claims) →
      ∃ err, authenticate verifyWithKey publicKey header = .error err) := by
  cases header with
  | none =>
    refine ⟨fun claims => ?_, fun _ => ⟨_, rfl⟩⟩
    simp [authenticate, BearerToken]
  | some text =>
    simp only [authenticate, BearerToken, Option.some.injEq, exists_and_left, exists_eq_left']
    rcases authorizationHeaderAuth_cases text with
      ⟨token, claims, hparts, hverify, hok⟩ | ⟨hnone, err, herr⟩
    · refine ⟨fun claims' => ?_, fun h => absurd ⟨token, hparts, hverify⟩ (h claims)⟩
      rw [hok, hparts]
      simp [hverify]
    · refine ⟨fun claims' => ?_, fun _ => ⟨err, herr⟩⟩
      rw [herr]
      simpa using fun token hparts => hnone token claims' hparts

end Accepts

/-- A token that ran out in 2001 is accepted in 2033. -/
theorem expired_token_accepted :
    ∃ (verifyWithKey : PublicKey → String → Except String JWT) (claims : JWT),
      authenticate verifyWithKey ⟨[]⟩ (some "Bearer a.b.c") = .ok (.jwt claims) ∧
      ¬ claims.LiveAt 2000000000 ∧
      ¬ (authenticate verifyWithKey ⟨[]⟩ (some "Bearer a.b.c") = .ok (.jwt claims) ↔
        BearerToken verifyWithKey ⟨[]⟩ (some "Bearer a.b.c") claims ∧
          claims.LiveAt 2000000000) := by
  refine ⟨fun _ token => if token = "a.b.c" then .ok ⟨999999999, 1000000000, none, some "partner"⟩
    else .error "invalid signature", ⟨999999999, 1000000000, none, some "partner"⟩, ?_, ?_, ?_⟩
  · decide
  · decide
  · intro h
    exact absurd (h.mp (by decide)).2 (by decide)

end Mtransaction

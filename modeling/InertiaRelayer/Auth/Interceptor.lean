import InertiaRelayer.Auth.Service

namespace InertiaRelayer.Auth

def authorizationHeader : String := "authorization"
def bearer : String := "Bearer "

abbrev MetadataMap := List (String × List UInt8)

def splitAux (sep : List Char) : Nat → List Char → List Char → List (List Char)
  | _, piece, [] => [piece.reverse]
  | skip + 1, piece, _ :: cs => splitAux sep skip piece cs
  | 0, piece, c :: cs =>
      if sep.isPrefixOf (c :: cs) then
        piece.reverse :: splitAux sep (sep.length - 1) [] cs
      else
        splitAux sep 0 (c :: piece) cs

def split (sep text : String) : List String :=
  (splitAux sep.toList 0 [] text.toList).map String.ofList

def startsWith (text sep : String) : Bool := sep.toList.isPrefixOf text.toList

section Interceptor

variable (p : Platform)

def bearerToken (metadata : MetadataMap) : Except Failure String :=
  match metadata.lookup authorizationHeader with
  | none => .error (permissionDenied "The authorization header is missing.")
  | some value =>
      match p.headerToStr value with
      | none => .error (invalidArgument "Failed to parse authorization header.")
      | some authHeader =>
          if startsWith authHeader bearer then
            match split bearer authHeader with
            | [_,token] => .ok token
            | _ => .error (permissionDenied "Missing jwt token.")
          else
            .error (permissionDenied
              "Invalid authorization header format. Must conform to `Authorization: Bearer $\x7btoken\x7d`.")

def verifyBearer (expected : AlgorithmType) (token : String) :
    Except Failure (Header × DeSerClaims) :=
  match p.verifyWithKey token with
  | none => .error (permissionDenied "Token failed verification.")
  | some (header,deSer) =>
      if header.algorithm = expected then
        .ok (header,deSer)
      else
        .error (.panicked .signingAlgoAssert)

def jwtFromHeader (expected : AlgorithmType) (metadata : MetadataMap) :
    Except Failure (Header × DeSerClaims) := do
  let token ← bearerToken p metadata
  verifyBearer p expected token

def callerClaims (expected : AlgorithmType) (metadata : MetadataMap) : Except Failure Claims := do
  let (_,deSer) ← jwtFromHeader p expected metadata
  p.claims deSer

def call (expected : AlgorithmType) (metadata : MetadataMap) : Except Failure Pubkey := do
  let claims ← callerClaims p expected metadata
  return claims.clientPubkey

end Interceptor

variable {p : Platform}

theorem verifyBearer_ok {expected : AlgorithmType} {token : String} {header : Header}
    {deSer : DeSerClaims} (h : verifyBearer p expected token = .ok (header,deSer)) :
    p.verifyWithKey token = some (header,deSer) ∧ header.algorithm = expected := by
  unfold verifyBearer at h
  split at h
  · cases h
  · rename_i header' deSer' hv
    split at h
    · rename_i halg
      cases h
      exact ⟨hv,halg⟩
    · cases h

theorem callerClaims_ok {expected : AlgorithmType} {metadata : MetadataMap} {claims : Claims}
    (h : callerClaims p expected metadata = .ok claims) :
    ∃ token header deSer, bearerToken p metadata = .ok token ∧
      p.verifyWithKey token = some (header,deSer) ∧ p.claims deSer = .ok claims := by
  obtain ⟨⟨header,deSer⟩,hj,hc⟩ := bind_ok h
  obtain ⟨token,ht,hv⟩ := bind_ok hj
  exact ⟨token,header,deSer,ht,(verifyBearer_ok hv).1,hc⟩

end InertiaRelayer.Auth

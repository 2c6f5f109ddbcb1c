import Kovael.Js.Text

/-!
# Reply proofs

`createChairReplyProof` and `verifyChairReplyProof` of
`src/services/ChairDispatchSecurity.ts`. The HMAC is a parameter, taking the key
and the message (the parts that `update` is called with, in order) to the
digest in hex; `timingSafeEqual` on buffers of one length is equality.
-/

namespace Kovael.Chair

/-- The HMAC-SHA256 of `node:crypto`, as key, message ↦ hex digest. -/
abbrev Hmac := String → String → String

structure ChairReplyProofInput where
  requestId : String
  claimSessionId : String
  replyProofSecret : String
  deriving DecidableEq, Repr

/-- `normalizeProofPart(value)`. -/
def normalizeProofPart (value : String) : String := Js.trim value

/-- `createChairReplyProof(input)`. -/
def createChairReplyProof (hmac : Hmac) (input : ChairReplyProofInput) : String :=
  hmac (normalizeProofPart input.replyProofSecret)
    (normalizeProofPart input.requestId ++ "\n" ++ normalizeProofPart input.claimSessionId)

/-- `verifyChairReplyProof(input)`. -/
def verifyChairReplyProof (hmac : Hmac) (input : ChairReplyProofInput) (replyProof : String) :
    Bool :=
  let expected := Js.hexBytes (createChairReplyProof hmac input)
  let actual := Js.hexBytes (normalizeProofPart replyProof)
  decide (actual.length = expected.length) && decide (actual = expected)

end Kovael.Chair

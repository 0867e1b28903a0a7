import Mathlib.Data.Nat.Notation
import Peregrine.Lib.Authority
import Peregrine.Lib.Grouped
import Peregrine.Lib.HttpHead

/-!
# HTTP messages

Requests and responses as hyper hands them over: the parts of the `Uri` that
the handler asks for, and the headers, with names in lower case and values that
are bytes.  The headers are listed in the order in which they came; what a
`HeaderMap` yields of them has the values of one name together (`headerMap`).
-/

namespace Peregrine

abbrev Header := String × List UInt8

/-- The headers as a `HeaderMap` yields them. -/
def headerMap (headers : List Header) : List Header := Grouped.grouped Prod.fst headers

inductive HttpVersion
  | http10
  | http11
  deriving DecidableEq

structure Uri where
  authority : Option String
  host : Option String
  port : Option UInt16
  pathAndQuery : Option String
  deriving DecidableEq

structure HttpRequest where
  method : String
  uri : Uri
  version : HttpVersion
  headers : List Header
  body : List UInt8
  deriving DecidableEq

/-- What may stand in the host of a URI; brackets and colons are those of an IP literal. -/
def isHostByte (b : UInt8) : Bool := Authority.isNameByte b || [0x5B, 0x5D, 0x3A].contains b

/-- The request is one that hyper reads: its method is a token, and its authority and
host have no bytes that a URI cannot have there. -/
def HttpRequest.wellFormed (req : HttpRequest) : Bool :=
  utf8 req.method != [] && (utf8 req.method).all HttpHead.isTokenByte &&
    (req.uri.authority.all fun text =>
      (utf8 text).all fun b => isHostByte b || [0x25, 0x40].contains b) &&
    req.uri.host.all fun text => (utf8 text).all isHostByte

/-- What the proxy sends to the target: the URI has become a path. -/
structure ForwardedRequest where
  method : String
  path : String
  version : HttpVersion
  headers : List Header
  body : List UInt8
  deriving DecidableEq

structure ResponseParts where
  status : ℕ
  headers : List Header
  deriving DecidableEq

structure HttpResponse where
  parts : ResponseParts
  body : List UInt8
  deriving DecidableEq

/-- `hyper::Error`, of which only the text is used. -/
structure HyperError where
  message : String
  deriving DecidableEq

end Peregrine

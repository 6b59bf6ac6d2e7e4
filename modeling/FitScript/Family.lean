import FitScript.Literal
import FitScript.Text.Blank

/-!
# Families and links

The distributions assumed for a response, and the functions that relate its expectation to the
linear predictor.

* `Family`, `Link`: the supported ones, with their names in R.
* `Family.supports`: which links are available for which family; `Family.canonicalLink` is used
  when none is given.
* `Family.ofName?`, `Link.ofName?`: reading a name in any style of spelling.
-/

namespace FitScript

/-! ## Links -/

/-- A function that relates the linear predictor to the expected response. -/
inductive Link where
  | identity
  | log
  | logit
  | probit
  | cauchit
  | cloglog
  | inverse
  | sqrt
  | inverseSquared
deriving DecidableEq

namespace Link

/-- Every link. -/
def all : List Link :=
  [identity, log, logit, probit, cauchit, cloglog, inverse, sqrt, inverseSquared]

/-- The name of a link in R. -/
def name : Link → String
  | identity => "identity"
  | log => "log"
  | logit => "logit"
  | probit => "probit"
  | cauchit => "cauchit"
  | cloglog => "cloglog"
  | inverse => "inverse"
  | sqrt => "sqrt"
  | inverseSquared => "1/mu^2"

/-- The name of a link as an R literal. -/
def literal (link : Link) : String :=
  Literal.write link.name

end Link

/-! ## Families -/

/-- A distribution assumed for the response. -/
inductive Family where
  | gaussian
  | binomial
  | poisson
  | gamma
  | inverseGaussian
  | quasiBinomial
  | quasiPoisson
deriving DecidableEq

namespace Family

/-- Every family. -/
def all : List Family :=
  [gaussian, binomial, poisson, gamma, inverseGaussian, quasiBinomial, quasiPoisson]

/-- The name of a family's function in R. -/
def name : Family → String
  | gaussian => "gaussian"
  | binomial => "binomial"
  | poisson => "poisson"
  | gamma => "Gamma"
  | inverseGaussian => "inverse.gaussian"
  | quasiBinomial => "quasibinomial"
  | quasiPoisson => "quasipoisson"

/-- The link that R uses when none is given (`canonical_link`). -/
def canonicalLink : Family → Link
  | gaussian => .identity
  | binomial | quasiBinomial => .logit
  | poisson | quasiPoisson => .log
  | gamma => .inverse
  | inverseGaussian => .inverseSquared

/-- The links that a family accepts, the canonical one first (`allowed_links`). -/
def allowedLinks : Family → List Link
  | gaussian => [.identity, .log, .inverse]
  | binomial | quasiBinomial => [.logit, .probit, .cauchit, .log, .cloglog]
  | poisson | quasiPoisson => [.log, .identity, .sqrt]
  | gamma => [.inverse, .identity, .log]
  | inverseGaussian => [.inverseSquared, .inverse, .identity, .log]

/-- Whether a link is available for a family. -/
def supports (family : Family) (link : Link) : Bool :=
  family.allowedLinks.contains link

/-- Whether a family only has a quasi-likelihood, which mixed models cannot be fitted with
    (`is_quasi`). -/
def isQuasi : Family → Bool
  | quasiBinomial | quasiPoisson => true
  | _ => false

end Family

/-! ## Reading names -/

namespace Spelling

/-- Characters that separate the words of a name. -/
def isSeparator (c : Char) : Bool :=
  c == '_' || c == '-' || c == ' ' || c == '.'

/-- A character in lower case, as far as names of ASCII letters can tell. Beyond ASCII only the
    Kelvin sign has a lower case form within it. -/
def lowerChar (c : Char) : Char :=
  if c = '\u212A' then 'k' else c.toLower

/-- The characters of a name that tell it from others: those left between blanks when the
    separators are dropped, in lower case. -/
def letters (s : String) : List Char :=
  ((Text.dropEndBlanks (Text.dropBlanks s.toList)).filter (!isSeparator ·)).map lowerChar

/-- Characters without an ending, unless they are nothing else or do not end so. -/
def withoutEnding (ending cs : List Char) : List Char :=
  let kept := cs.take (cs.length - ending.length)
  if kept ++ ending = cs ∧ kept ≠ [] then kept else cs

/-- The key under which a name is looked up (`normalize`): its letters without the word for its
    kind. -/
def key (kind s : String) : String :=
  String.ofList (withoutEnding kind.toList (letters s))

end Spelling

/-- The family of a name, such as `GaussianFamily` or `inverse.gaussian` (`Family.from_str`). -/
def Family.ofName? (s : String) : Option Family :=
  match Spelling.key "family" s with
  | "gaussian" | "normal" => some .gaussian
  | "binomial" => some .binomial
  | "poisson" => some .poisson
  | "gamma" => some .gamma
  | "inversegaussian" => some .inverseGaussian
  | "quasibinomial" => some .quasiBinomial
  | "quasipoisson" => some .quasiPoisson
  | _ => none

/-- The link of a name, such as `LogLink` or `square-root` (`Link.from_str`). -/
def Link.ofName? (s : String) : Option Link :=
  match Spelling.key "link" s with
  | "identity" => some .identity
  | "log" => some .log
  | "logit" => some .logit
  | "probit" => some .probit
  | "cauchit" | "cauchy" => some .cauchit
  | "cloglog" => some .cloglog
  | "inverse" | "reciprocal" => some .inverse
  | "sqrt" | "squareroot" => some .sqrt
  | "1/mu^2" | "inversesquared" | "inversesquare" => some .inverseSquared
  | _ => none

end FitScript

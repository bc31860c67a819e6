import AegisForge.Core.Text

/-!
# Parts of URLs

The scheme and the network location that `urlparse` finds.
-/

namespace AegisForge.Core

structure Url where
  scheme : List Char
  netloc : List Char
  deriving DecidableEq

namespace Url

/-- The characters whose compatibility decomposition has one of `/?#@:`. -/
def delimiterLike : List ℕ :=
  [0x2047, 0x2048, 0x2049, 0x2100, 0x2101, 0x2105, 0x2106, 0x2a74, 0xfe13, 0xfe16, 0xfe55,
    0xfe56, 0xfe5f, 0xfe6b, 0xff03, 0xff0f, 0xff1a, 0xff1f, 0xff20]

def isSchemeChar (character : Char) : Bool :=
  character.isAlphanum || character ∈ ['+', '-', '.']

/-- The lower-case scheme before the first colon, if there is one, and the rest. -/
def splitScheme (url : List Char) : List Char × List Char :=
  let scheme := url.takeWhile (· ≠ ':')
  if scheme.length < url.length ∧ scheme ≠ [] ∧ scheme.all isSchemeChar = true ∧
      (scheme.head?.any Char.isAlpha) = true then
    (scheme.map Char.toLower, url.drop (scheme.length + 1))
  else ([], url)

/-- `urllib.parse.urlparse`, which raises `ValueError` on `none`. -/
def urlparse (text : String) : Option Url :=
  let kept := (text.toList.dropWhile fun character => character.toNat ≤ 32).filter
    fun character => character ∉ ['\t', '\r', '\n']
  let (scheme, rest) := splitScheme kept
  if ['/', '/'].isPrefixOf rest = true then
    let netloc := (rest.drop 2).takeWhile fun character => character ∉ ['/', '?', '#']
    if ('[' ∈ netloc ↔ ']' ∈ netloc) ∧
        (netloc.all fun character => character.toNat ∉ delimiterLike) = true then
      some ⟨scheme, netloc⟩
    else none
  else some ⟨scheme, []⟩

/-- The host and the port of a network location without a user; they stand apart by a
colon, which comes after the brackets of an address. -/
def hostInfo (netloc : List Char) : List Char × List Char :=
  let before := netloc.takeWhile (· ≠ '[')
  if before.length < netloc.length then
    let bracketed := netloc.drop (before.length + 1)
    let host := bracketed.takeWhile (· ≠ ']')
    (host, ((bracketed.drop (host.length + 1)).dropWhile (· ≠ ':')).drop 1)
  else
    let host := netloc.takeWhile (· ≠ ':')
    (host, netloc.drop (host.length + 1))

/-- Reading the port does not raise: there is none, or it is at most the largest port. -/
def isPort (port : List Char) : Bool :=
  port.all Char.isDigit && port.foldl (fun value digit => 10 * value + (digit.toNat - 48)) 0 ≤ 65535

/-- An absolute HTTPS URL. -/
def isHttps (text : String) : Bool :=
  (urlparse text).any fun url => url.scheme = ['h', 't', 't', 'p', 's'] && url.netloc ≠ []

end Url

end AegisForge.Core

import Bbs.Net

/-!
`Parse` of Go's package `net/url`, as far as its error and the scheme of its result go.

A fragment and a query are cut off first. What is left has a scheme if it starts with a
name and a colon; without a slash after the colon it is opaque and not looked into.
Otherwise it may have an authority. Percent escapes have to be well formed everywhere but
in the query, and a host may not have any.
-/

namespace Bbs.Net

/-- The part of a `url.URL` that is read. -/
structure URL where
  scheme : String
  deriving DecidableEq

/-- Every percent sign starts an escape. -/
def unescapes : List Char → Bool
  | [] => true
  | '%' :: a :: b :: s => isHex a && isHex b && unescapes s
  | '%' :: _ => false
  | _ :: s => unescapes s

def isLetter (c : Char) : Bool :=
  'a' ≤ c ∧ c ≤ 'z' ∨ 'A' ≤ c ∧ c ≤ 'Z'

def isSchemeChar (c : Char) : Bool :=
  isLetter c ∨ c.isDigit ∨ c = '+' ∨ c = '-' ∨ c = '.'

/-- The scheme, which may be empty, and what comes after it. A colon at the front is an
error. -/
def getScheme (s : List Char) : Option (List Char × List Char) :=
  match s.takeWhile isSchemeChar, s.dropWhile isSchemeChar with
  | [], ':' :: _ => none
  | c :: name, ':' :: rest => if isLetter c then some (c :: name, rest) else some ([], s)
  | _, _ => some ([], s)

/-- The user before the last `@` can be unescaped, and the host has no escapes. -/
def authorityParses (authority : List Char) : Bool :=
  let host := (authority.reverse.takeWhile (· ≠ '@')).reverse
  let user := ((authority.reverse.dropWhile (· ≠ '@')).drop 1).reverse
  unescapes (user.takeWhile (· ≠ ':')) && unescapes (user.dropWhile (· ≠ ':')) && !host.contains '%'

/-- What comes after the scheme, without the query. -/
def restParses (scheme rest : List Char) : Bool :=
  if rest.head? ≠ some '/' ∧ scheme ≠ [] then true
  else
    match rest with
    | '/' :: '/' :: rest' =>
        if scheme ≠ [] ∨ rest'.head? ≠ some '/' then
          authorityParses (rest'.takeWhile (· ≠ '/')) && unescapes (rest'.dropWhile (· ≠ '/'))
        else unescapes rest
    | rest => unescapes rest

def parseURL (rawurl : String) : Option URL :=
  let u := rawurl.toList.takeWhile (· ≠ '#')
  let fragment := (rawurl.toList.dropWhile (· ≠ '#')).drop 1
  match getScheme u with
  | none => none
  | some (scheme, rest) =>
      if restParses scheme (rest.takeWhile (· ≠ '?')) && unescapes fragment then
        some ⟨String.ofList (scheme.map Char.toLower)⟩
      else none

example : parseURL "docker:///docker.com/docker" = some ⟨"docker"⟩ := by decide

example : parseURL "http://user%zz@host" = none := by decide

end Bbs.Net

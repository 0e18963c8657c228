import LivePage.Markdown.Scan

/-!
Bare addresses in text. An address of the web begins with a scheme or with `www.`, an address of
mail is found by its sign in the middle. Punctuation and unbalanced parentheses at the end of an
address of the web do not belong to it.
-/

namespace LivePage.Markdown

def isHostChar (c : Char) : Bool :=
  !Text.isBlank c && !Text.isPunctuation c

/-- Whether the parts of a host name, of which `dots` have ended, may be one: at least two, and no
underscore in the last two unless there are very many. -/
def isHost (dots previous last : Nat) (ended : Bool) : Bool :=
  if previous = 0 && last = 0 then 0 < dots
  else !ended && 10 < dots

/-- The number of bytes of the host name that a text begins with. `previous` and `last` count the
underscores of its last two parts. -/
def hostLength? : Nat → Nat → Nat → Nat → Text → Option Nat
  | dots, previous, last, bytes, [] => if isHost dots previous last false then some bytes else none
  | dots, previous, last, bytes, c :: s =>
      let bytes' := bytes + c.utf8Size
      if c = '_' then hostLength? dots previous (last + 1) bytes' s
      else if c = '.' then hostLength? (dots + 1) last 0 bytes' s
      else if c = '-' || isHostChar c || (c = '\\' && !s.isEmpty) then
        hostLength? dots previous last bytes' s
      else if isHost dots previous last true then some bytes
      else none

def beginsHost (s : Text) : Bool := (hostLength? 0 0 0 0 s).isSome

/-- An entity at the end of an address, given in reverse behind its semicolon, is dropped whole. -/
def dropEntity (reversed : Text) : Text :=
  let letters := reversed.takeWhile Text.isAsciiAlpha
  match letters, reversed.drop letters.length with
  | _ :: _, '&' :: before => before
  | _, _ => reversed

/-- Drops from a reversed address what does not belong to it. -/
def dropTail : Nat → Text → Text
  | 0, reversed => reversed
  | fuel + 1, reversed =>
      match reversed with
      | [] => []
      | c :: before =>
          if "?!.,:*_~'\"".toList.contains c then dropTail fuel before
          else if c = ';' then dropTail fuel (dropEntity before)
          else if c = ')' then
            if reversed.count ')' ≤ reversed.count '(' then reversed else dropTail fuel before
          else reversed

/-- The part of a text up to a blank or an angle bracket that is an address. -/
def trimAddress (s : Text) : Text :=
  let body := (s.takeWhile fun c => !isSpace c).takeWhile fun c => c ≠ '<'
  (dropTail body.length body.reverse).reverse

def autolinkSchemes : List Text := ["http", "https", "ftp"]

/-- An address that goes on with the colon in front of `behind`; `before` is the text in front of
the colon, reversed. Gives the scheme and the rest of the address. -/
def schemeAddress? (before behind : Text) : Option (Text × Text) :=
  match behind with
  | ':' :: '/' :: '/' :: host =>
      let scheme := (before.takeWhile Text.isAsciiAlpha).reverse
      if autolinkSchemes.contains scheme && beginsHost host then some (scheme, trimAddress behind)
      else none
  | _ => none

/-- An address that begins with `www.`, after a blank or an opening mark. -/
def wwwAddress? (before behind : Text) : Option Text :=
  let isFree := match before with
    | [] => true
    | c :: _ => isSpace c || "*_~([".toList.contains c
  if isFree && Text.startsWith behind "www." && beginsHost behind then some (trimAddress behind)
  else none

def isMailNameChar (c : Char) : Bool :=
  Text.isAsciiAlnum c || c = '.' || c = '+' || c = '-' || c = '_'

/-- The name in front of the sign, from text in reverse, and whether it brings its own scheme. -/
def mailName : Nat → Bool → Bool → Text → Text → Text × Bool × Bool
  | 0, schemed, chat, found, _ => (found, schemed, chat)
  | fuel + 1, schemed, chat, found, before =>
      match before with
      | [] => (found, schemed, chat)
      | c :: rest =>
          if isMailNameChar c then mailName fuel schemed chat (c :: found) rest
          else if c = ':' then
            let scheme := (rest.takeWhile Text.isAsciiAlpha).reverse
            if scheme = "mailto".toList then mailName fuel true chat (c :: found) rest
            else if scheme = "xmpp".toList then mailName fuel true true (c :: found) rest
            else (found, schemed, chat)
          else (found, schemed, chat)

/-- The host behind the sign, with the number of its inner points; `none` if a second sign follows.
-/
def mailHost (chat : Bool) : Nat → Text → Text → Option (Text × Nat)
  | dots, seen, [] => some (seen.reverse, dots)
  | dots, seen, c :: s =>
      if Text.isAsciiAlnum c then mailHost chat dots (c :: seen) s
      else if c = '@' then none
      else if c = '.' && s.head?.any Text.isAsciiAlnum then mailHost chat (dots + 1) (c :: seen) s
      else if (c = '/' && chat) || c = '-' || c = '_' then mailHost chat dots (c :: seen) s
      else some (seen.reverse, dots)

/-- An address of mail around a sign: `before` is the text in front of it, reversed, and `behind`
the text that follows it. Gives the link's address, the name, and the host. -/
def mailAddress? (before behind : Text) : Option (Text × Text × Text) :=
  let (name, schemed, chat) := mailName before.length false false [] before
  if name.isEmpty then none
  else match mailHost chat 0 [] behind with
    | none => none
    | some (host, dots) =>
        if dots = 0 || !host.getLast?.any Text.isAsciiAlpha then none
        else
          let host := (trimAddress ('@' :: host)).drop 1
          let shown := name ++ '@' :: host
          some (if schemed then shown else "mailto:".toList ++ shown, name, host)

end LivePage.Markdown

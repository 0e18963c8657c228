import Mathlib.Data.List.Forall2
import LivePage.Typography.Typographer

/-!
Straight quotes undo smart punctuation. When the quotes of every text stand for those of its own
source, one for one, a run of neighbouring texts becomes one text that has the quotes of the source:
generated quotes become what was typed, and typed curly quotes stay. Whether the source has curly
quotes elsewhere does not matter, though it decides how the quotes are mapped.

Nothing is said of texts whose quotes do not line up with their source.
-/

namespace LivePage
open Markdown

theorem Text.suffix_of_dropBytes? {n : Nat} {s rest : Text} (found : dropBytes? n s = some rest) :
    rest <:+ s := by
  induction n, s using dropBytes?.induct with
  | case1 s =>
      rw [dropBytes?] at found
      cases found
      exact List.suffix_refl _
  | case2 n => cases found
  | case3 n c s fits ih =>
      rw [dropBytes?, if_pos fits] at found
      exact (ih found).trans (List.suffix_cons c s)
  | case4 n c s big =>
      rw [dropBytes?, if_neg big] at found
      cases found

theorem Text.prefix_of_takeBytes? {n : Nat} {s first : Text}
    (found : takeBytes? n s = some first) : first <+: s := by
  induction n, s using takeBytes?.induct generalizing first with
  | case1 s =>
      rw [takeBytes?] at found
      cases found
      exact List.nil_prefix
  | case2 n => cases found
  | case3 n c s fits ih =>
      rw [takeBytes?, if_pos fits] at found
      obtain ⟨more, taken, rfl⟩ := Option.map_eq_some_iff.1 found
      exact List.cons_prefix_cons.2 ⟨rfl, ih taken⟩
  | case4 n c s big =>
      rw [takeBytes?, if_neg big] at found
      cases found

theorem Span.subset_of_slice? {span : Span} {starts : List Nat} {source slice : Text}
    (found : span.slice? starts source = some slice) : slice ⊆ source := by
  obtain ⟨range, _, sliced⟩ := Option.bind_eq_some_iff.1 found
  rw [Text.slice?] at sliced
  split at sliced
  · obtain ⟨rest, dropped, taken⟩ := Option.bind_eq_some_iff.1 sliced
    exact List.Subset.trans (Text.prefix_of_takeBytes? taken).subset
      (Text.suffix_of_dropBytes? dropped).subset
  · cases sliced

/-- A quote stands for a typed one if it is that quote, or the curly form of a straight one. -/
def StandsFor (typed c : Char) : Prop :=
  c = typed ∨ (typed = '\x22' ∧ (c = '“' ∨ c = '”')) ∨ (typed = '\x27' ∧ (c = '‘' ∨ c = '’'))

instance (typed c : Char) : Decidable (StandsFor typed c) := inferInstanceAs (Decidable (_ ∨ _))

variable {typed c : Char}

theorem StandsFor.eq_of_curly (stands : StandsFor typed c) (curly : isCurlyQuote typed = true) :
    c = typed := by
  rcases stands with same | ⟨rfl, _⟩ | ⟨rfl, _⟩
  · exact same
  · exact absurd curly (by decide)
  · exact absurd curly (by decide)

theorem StandsFor.eq_of_straight (stands : StandsFor typed c) (straight : isCurlyQuote c = false) :
    c = typed := by
  rcases stands with same | ⟨_, rfl | rfl⟩ | ⟨_, rfl | rfl⟩
  · exact same
  all_goals exact absurd straight (by decide)

theorem StandsFor.map_straight (stands : StandsFor typed c) (quote : isQuote typed = true)
    (straight : isCurlyQuote typed = false) : QuoteStyle.straight.map c = typed := by
  rcases stands with rfl | ⟨rfl, rfl | rfl⟩ | ⟨rfl, rfl | rfl⟩
  · have typed : c = '\x22' ∨ c = '\x27' := by simpa [isQuote, straight] using quote
    rcases typed with rfl | rfl
    · rfl
    · rfl
  all_goals rfl

theorem map_of_not_isCurlyQuote (style : QuoteStyle) (plain : isCurlyQuote c = false) :
    style.map c = c := by
  simp only [isCurlyQuote, Bool.or_eq_false_iff, decide_eq_false_iff_not] at plain
  simp [QuoteStyle.map, plain]

theorem map_of_not_isQuote (style : QuoteStyle) (plain : isQuote c = false) : style.map c = c :=
  map_of_not_isCurlyQuote style (Bool.or_eq_false_iff.1 plain).2

/-- The text with its quotes replaced by others, in order. -/
def requoted : List Char → Text → Text
  | _, [] => []
  | quotes, c :: s =>
      if isQuote c then quotes.headD c :: requoted quotes.tail s else c :: requoted quotes s

theorem requoted_append {quotes : List Char} {s : Text}
    (enough : quotes.length = (s.filter isQuote).length) (more : List Char) (t : Text) :
    requoted (quotes ++ more) (s ++ t) = requoted quotes s ++ requoted more t := by
  induction s generalizing quotes with
  | nil =>
      rw [List.filter_nil, List.length_nil, List.length_eq_zero_iff] at enough
      subst enough
      rfl
  | cons c s ih =>
      by_cases quote : isQuote c = true
      · rw [List.filter_cons_of_pos quote, List.length_cons] at enough
        obtain ⟨q, rest, rfl⟩ := List.exists_cons_of_length_eq_add_one enough
        simp only [List.cons_append, requoted, quote, if_true, List.headD_cons, List.tail_cons]
        rw [ih (Nat.succ.inj enough)]
      · rw [List.filter_cons_of_neg quote] at enough
        simp only [List.cons_append, requoted, quote]
        rw [ih enough]
        rfl

theorem map_eq_requoted {f : Char → Char} {quotes : List Char} {s : Text}
    (keeps : ∀ c ∈ s, isQuote c = false → f c = c)
    (maps : List.Forall₂ (fun q c => f c = q) quotes (s.filter isQuote)) :
    s.map f = requoted quotes s := by
  induction s generalizing quotes with
  | nil => rfl
  | cons c s ih =>
      obtain ⟨first, later⟩ := List.forall_mem_cons.1 keeps
      by_cases quote : isQuote c = true
      · rw [List.filter_cons_of_pos quote] at maps
        obtain ⟨q, rest, same, tail, rfl⟩ := List.forall₂_cons_right_iff.1 maps
        rw [List.map_cons, requoted, if_pos quote, List.headD_cons, List.tail_cons, same,
          ih later tail]
      · rw [List.filter_cons_of_neg quote] at maps
        rw [List.map_cons, requoted, if_neg quote, first (eq_false_of_ne_true quote),
          ih later maps]

theorem styleAligned_eq_requoted {quotes : List Char} {s : Text}
    (every : ∀ q ∈ quotes, isQuote q = true)
    (stand : List.Forall₂ StandsFor quotes (s.filter isQuote)) :
    Typographer.styleAligned .straight quotes s = requoted quotes s := by
  induction s generalizing quotes with
  | nil => rfl
  | cons c s ih =>
      by_cases quote : isQuote c = true
      · rw [List.filter_cons_of_pos quote] at stand
        obtain ⟨q, rest, stands, tail, rfl⟩ := List.forall₂_cons_right_iff.1 stand
        obtain ⟨first, later⟩ := List.forall_mem_cons.1 every
        have styled : (if isCurlyQuote q = true then c else QuoteStyle.straight.map c) = q := by
          cases curly : isCurlyQuote q with
          | true => exact stands.eq_of_curly curly
          | false => exact stands.map_straight first curly
        rw [Typographer.styleAligned, if_pos quote, requoted, if_pos quote, List.headD_cons,
          List.tail_cons, ← ih later tail]
        exact congrArg (· :: _) styled
      · rw [List.filter_cons_of_neg quote] at stand
        rw [Typographer.styleAligned.eq_def, requoted, if_neg quote, ← ih every stand]
        exact if_neg quote

theorem styleQuotes_eq_requoted {source slice s : Text} (inside : slice ⊆ source)
    (stand : List.Forall₂ StandsFor (slice.filter isQuote) (s.filter isQuote)) :
    Typographer.styleQuotes .straight (source.any isCurlyQuote)
        (if source.any isCurlyQuote = true then some slice else none) s =
      requoted (slice.filter isQuote) s := by
  have every : ∀ q ∈ slice.filter isQuote, isQuote q = true := fun q member =>
    (List.mem_filter.1 member).2
  have stands : ∀ q c, (q, c) ∈ (slice.filter isQuote).zip (s.filter isQuote) → StandsFor q c :=
    fun q c paired => List.forall₂_zip stand paired
  rw [Typographer.styleQuotes.eq_def]
  split
  · next plain =>
      -- without curly quotes the text has what was typed already
      have straight : ∀ c ∈ s, isCurlyQuote c = false := by simpa using plain
      refine (List.map_id s).symm.trans (map_eq_requoted (fun _ _ _ => rfl) ?_)
      refine List.forall₂_iff_zip.2 ⟨stand.length_eq, fun {q c} paired => ?_⟩
      have member := (List.mem_filter.1 (List.of_mem_zip paired).2).1
      exact (stands q c paired).eq_of_straight (straight c member)
  · split
    · next untyped =>
        -- no curly quote was typed anywhere
        have straight : ∀ q ∈ source, isCurlyQuote q = false := by simpa using untyped
        refine map_eq_requoted (fun c _ plain => map_of_not_isQuote _ plain) ?_
        refine List.forall₂_iff_zip.2 ⟨stand.length_eq, fun {q c} paired => ?_⟩
        have member := (List.of_mem_zip paired).1
        exact (stands q c paired).map_straight (every q member)
          (straight q (inside (List.mem_filter.1 member).1))
    · next typed =>
        have curly : source.any isCurlyQuote = true := by simpa using typed
        simp only [curly, if_true, if_pos stand.length_eq]
        exact styleAligned_eq_requoted every stand

namespace Typographer

/-- The part of the source that a node came from. -/
def origin? (source : Text) (n : Node) : Option Text :=
  n.span.slice? (Text.lineStarts source) source

mutual

def Each (p : Node → Prop) : Node → Prop
  | .mk v span children => p (.mk v span children) ∧ EachOf p children

def EachOf (p : Node → Prop) : List Node → Prop
  | [] => True
  | n :: rest => Each p n ∧ EachOf p rest

end

mutual

theorem Each.imp₂ {p q r : Node → Prop} (both : ∀ n, p n → q n → r n) :
    ∀ {n : Node}, Each p n → Each q n → Each r n
  | .mk _ _ _, one, two => ⟨both _ one.1 two.1, EachOf.imp₂ both one.2 two.2⟩

theorem EachOf.imp₂ {p q r : Node → Prop} (both : ∀ n, p n → q n → r n) :
    ∀ {nodes : List Node}, EachOf p nodes → EachOf q nodes → EachOf r nodes
  | [], _, _ => trivial
  | _ :: _, one, two => ⟨Each.imp₂ both one.1 two.1, EachOf.imp₂ both one.2 two.2⟩

end

mutual

theorem mapValues_congr {f g : Value → Span → Value} :
    ∀ {n : Node}, Each (fun n => f n.value n.span = g n.value n.span) n →
      n.mapValues f = n.mapValues g
  | .mk v span children, same => by
      have here : f v span = g v span := same.1
      rw [Node.mapValues, Node.mapValues, here, mapAllValues_congr same.2]

theorem mapAllValues_congr {f g : Value → Span → Value} :
    ∀ {nodes : List Node}, EachOf (fun n => f n.value n.span = g n.value n.span) nodes →
      Node.mapAllValues f nodes = Node.mapAllValues g nodes
  | [], _ => rfl
  | n :: rest, same => by
      rw [Node.mapAllValues, Node.mapAllValues, mapValues_congr same.1, mapAllValues_congr same.2]

end

/-- If the node is a text, its quotes stand for those of its own source, one for one. -/
def LinedUp (source : Text) (n : Node) : Prop :=
  ∀ s, n.text? = some s → ∃ slice, origin? source n = some slice ∧
    List.Forall₂ StandsFor (slice.filter isQuote) (s.filter isQuote)

/-- The text of a run of texts. -/
def runText (run : List Node) : Text := run.flatMap fun n => n.text?.getD []

/-- The quotes that were typed for a run of texts. -/
def runQuotes (source : Text) (run : List Node) : List Char :=
  (run.flatMap fun n => (origin? source n).getD []).filter isQuote

/-- Siblings, and what becomes of them: every run of texts that no text stands before or behind is
one text with the quotes of its source, in the place of the first; other nodes stay. -/
inductive Requoted (source : Text) : List Node → List Node → Prop where
  | nil : Requoted source [] []
  | other {n : Node} {children' rest rest' : List Node} :
      n.text? = none → Requoted source n.children children' → Requoted source rest rest' →
      Requoted source (n :: rest) (.mk n.value n.span children' :: rest')
  | run {first : Node} {more children' rest rest' : List Node} :
      (∀ n ∈ first :: more, n.text?.isSome) → (∀ n ∈ rest.head?, n.text? = none) →
      Requoted source first.children children' → Requoted source rest rest' →
      Requoted source (first :: more ++ rest)
        (.mk (.text (requoted (runQuotes source (first :: more)) (runText (first :: more))))
          first.span children' :: rest')

theorem runText_cons (n : Node) (run : List Node) :
    runText (n :: run) = runText [n] ++ runText run := by
  simp [runText]

theorem runQuotes_cons (source : Text) (n : Node) (run : List Node) :
    runQuotes source (n :: run) = runQuotes source [n] ++ runQuotes source run := by
  simp [runQuotes]

/-- What straight quotes do to the value of a node: a text gets the quotes of its own source, as
many as it has, and other values stay. -/
structure Requotes (source : Text) (f : Value → Span → Value) (n : Node) : Prop where
  other : n.text? = none → f n.value n.span = n.value
  text : n.text?.isSome → f n.value n.span = .text (requoted (runQuotes source [n]) (runText [n]))
  enough : n.text?.isSome → (runQuotes source [n]).length = ((runText [n]).filter isQuote).length

theorem exists_restyle (source : Text) :
    ∃ f : Value → Span → Value,
      (∀ root : Node, restyle ⟨.straight, some source⟩ root = root.mapValues f) ∧
      ∀ n : Node, LinedUp source n → Requotes source f n := by
  have straight : ¬(QuoteStyle.straight = QuoteStyle.curly) := by decide
  refine ⟨_, fun root => if_neg straight, ?_⟩
  rintro ⟨v, span, children⟩ linedUp
  cases v with
  | text s =>
      obtain ⟨slice, found, stand⟩ := linedUp s rfl
      have found : span.slice? (Text.lineStarts source) source = some slice := found
      have quotes : runQuotes source [.mk (.text s) span children] = slice.filter isQuote := by
        simp [runQuotes, origin?, Node.span, found]
      have content : runText [.mk (.text s) span children] = s := List.append_nil s
      refine ⟨?_, ?_, ?_⟩
      · rintro ⟨⟩
      · intro _
        rw [quotes, content, ← styleQuotes_eq_requoted (Span.subset_of_slice? found) stand]
        cases curly : source.any isCurlyQuote with
        | true => simp [Node.value, Node.span, curly, found]
        | false => simp [Node.value, curly]
      · intro _
        rw [quotes, content]
        exact stand.length_eq
  | _ =>
      refine ⟨fun _ => rfl, ?_, ?_⟩
      · rintro ⟨⟩
      · rintro ⟨⟩

theorem joinFirst_of_other {n : Node} (other : n.text? = none) (rest : List Node) :
    joinFirst n rest = n :: rest := by
  obtain ⟨v, span, children⟩ := n
  cases v with
  | text s => cases other
  | _ => rfl

theorem eq_of_text? {n : Node} {s : Text} (text : n.text? = some s) :
    n = .mk (.text s) n.span n.children := by
  obtain ⟨v, span, children⟩ := n
  cases v with
  | text t =>
      cases text
      rfl
  | _ => cases text

theorem forall_mem_head? {n : Node} (other : n.text? = none) (rest : List Node) :
    ∀ m ∈ (n :: rest).head?, m.text? = none := by
  rintro m ⟨⟩
  exact other

theorem joinFirst_of_head {n : Node} {rest : List Node}
    (apart : ∀ m ∈ rest.head?, m.text? = none) : joinFirst n rest = n :: rest := by
  cases text : n.text? with
  | none => exact joinFirst_of_other text rest
  | some s =>
      rw [eq_of_text? text]
      cases rest with
      | nil => rfl
      | cons m rest =>
          obtain ⟨v, span, children⟩ := m
          have other := apart _ rfl
          cases v with
          | text t => cases other
          | _ => rfl

/-- Joining texts that have the quotes of their own source gives runs the quotes of theirs. -/
theorem requoted_joinAll {source : Text} {f : Value → Span → Value} :
    ∀ nodes : List Node, EachOf (Requotes source f) nodes →
      Requoted source nodes (joinAll (Node.mapAllValues f nodes))
  | [], _ => .nil
  | .mk v span children :: rest, each => by
      have below := requoted_joinAll children each.1.2
      have after := requoted_joinAll rest each.2
      have here := each.1.1
      rw [Node.mapAllValues, Node.mapValues, joinAll, join]
      generalize joinAll (Node.mapAllValues f children) = children' at below
      generalize joinAll (Node.mapAllValues f rest) = rest' at after
      cases text : (Node.mk v span children).text? with
      | none =>
          have kept : f v span = v := here.other text
          have other : (Node.mk v span children').text? = none := text
          rw [kept, joinFirst_of_other other]
          exact .other text below after
      | some s =>
          have isText : (Node.mk v span children).text?.isSome := by rw [text]; rfl
          have alone : ∀ n ∈ [Node.mk v span children], n.text?.isSome :=
            List.forall_mem_singleton.2 isText
          have mapped : f v span = _ := here.text isText
          rw [mapped]
          cases after with
          | nil =>
              rw [joinFirst_of_head (by simp)]
              exact .run alone (by simp) below .nil
          | @other m children'' _ _ other inner outer =>
              have later : (Node.mk m.value m.span children'').text? = none := other
              rw [joinFirst_of_head (forall_mem_head? later _)]
              exact .run alone (forall_mem_head? other _) below (.other other inner outer)
          | @run next more _ _ _ texts apart inner outer =>
              rw [joinFirst, ← requoted_append (here.enough isText), ← runQuotes_cons,
                ← runText_cons]
              exact .run (List.forall_mem_cons.2 ⟨isText, texts⟩) apart below outer

/-- Straight quotes give every run of texts the quotes of its source as one text, and only then
are symbols replaced. Another source in which every text has the same origin gives the same. -/
theorem apply_straight {source : Text} {root : Node} (linedUp : Each (LinedUp source) root) :
    ∃ merged : Node, Requoted source [root] [merged] ∧
      apply ⟨.straight, some source⟩ root = setSymbols merged ∧
      ∀ elsewhere : Text,
        Each (fun n => n.text?.isSome → origin? elsewhere n = origin? source n) root →
          apply ⟨.straight, some elsewhere⟩ root = setSymbols merged := by
  obtain ⟨f, restyled, requotes⟩ := exists_restyle source
  refine ⟨join (root.mapValues f), ?_, ?_, ?_⟩
  · have each : EachOf (Requotes source f) [root] :=
      ⟨linedUp.imp₂ (fun n _ aligned => requotes n aligned) linedUp, trivial⟩
    have joined := requoted_joinAll [root] each
    rwa [Node.mapAllValues, Node.mapAllValues, joinAll, joinAll, joinFirst_of_head (by simp)]
      at joined
  · rw [apply, restyled]
  · intro elsewhere same
    obtain ⟨g, restyled', requotes'⟩ := exists_restyle elsewhere
    have equal : root.mapValues g = root.mapValues f := by
      refine mapValues_congr (linedUp.imp₂ ?_ same)
      intro n aligned origins
      have aligned' : LinedUp elsewhere n := by
        intro s text
        rw [origins (by rw [text]; rfl)]
        exact aligned s text
      cases text : n.text? with
      | none => rw [(requotes n aligned).other text, (requotes' n aligned').other text]
      | some s =>
          have isText : n.text?.isSome := by rw [text]; rfl
          have quotes : runQuotes elsewhere [n] = runQuotes source [n] := by
            rw [runQuotes, runQuotes, List.flatMap_singleton, List.flatMap_singleton,
              origins isText]
          rw [(requotes n aligned).text isText, (requotes' n aligned').text isText, quotes]
    rw [apply, restyled', equal]

/-- Typed and generated quotes in one run, and a curly quote that is typed behind a text. -/
theorem apply_straight_mixed :
    let span (line first last : Nat) : Span := ⟨⟨line, first⟩, ⟨line, last⟩⟩
    let source : Text := "“é” it's \"x\" (c)\n*'”'*"
    let mixed : Node := .mk .paragraph (span 1 1 21)
      [.mk (.text "“é” it’s ") (span 1 1 14) [], .mk (.text "“x” (c") (span 1 15 20) [],
        .mk (.text ")") (span 1 21 21) [], .mk .softBreak (span 1 22 22) [],
        .mk .emph (span 2 1 7) [.mk (.text "‘”’") (span 2 2 6) []]]
    let generated : Node := .mk .paragraph (span 1 1 4) [.mk (.text "it’s") (span 1 1 4) []]
    Each (LinedUp source) mixed ∧ Each (LinedUp "it's ”") generated ∧
      (∃ merged : Node, Requoted source [mixed] [merged] ∧
        apply ⟨.straight, some source⟩ mixed = setSymbols merged) ∧
      (apply ⟨.straight, some source⟩ mixed).children.map Node.value =
        [.text "“é” it's \"x\" ©", .softBreak, .emph] ∧
      apply ⟨.straight, some "it's"⟩ generated = apply ⟨.straight, some "it's ”"⟩ generated := by
  intro span source mixed generated
  have one : Each (LinedUp source) mixed := by
    refine ⟨?_, ⟨?_, trivial⟩, ⟨?_, trivial⟩, ⟨?_, trivial⟩, ⟨?_, trivial⟩, ⟨?_, ?_, trivial⟩, trivial⟩
    · rintro s ⟨⟩
    · rintro s ⟨⟩
      exact ⟨"“é” it's ", by decide +kernel, by decide +kernel⟩
    · rintro s ⟨⟩
      exact ⟨"\"x\" (c", by decide +kernel, by decide +kernel⟩
    · rintro s ⟨⟩
      exact ⟨")", by decide +kernel, by decide +kernel⟩
    · rintro s ⟨⟩
    · rintro s ⟨⟩
    · refine ⟨?_, trivial⟩
      rintro s ⟨⟩
      exact ⟨"'”'", by decide +kernel, by decide +kernel⟩
  have two : Each (LinedUp "it's ”") generated := by
    refine ⟨?_, ⟨?_, trivial⟩, trivial⟩
    · rintro s ⟨⟩
    · rintro s ⟨⟩
      exact ⟨"it's", by decide +kernel, by decide +kernel⟩
  obtain ⟨merged, requoted, applied, _⟩ := apply_straight one
  obtain ⟨_, _, same, elsewhere⟩ := apply_straight two
  refine ⟨one, two, ⟨merged, requoted, applied⟩, by decide +kernel, ?_⟩
  rw [same]
  refine elsewhere "it's" ⟨?_, ⟨?_, trivial⟩, trivial⟩
  · rintro ⟨⟩
  · intro _
    decide +kernel

end Typographer

end LivePage

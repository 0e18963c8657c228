import LivePage.Proofs.Render.ImageSource
import LivePage.Proofs.Render.Visits
import LivePage.Render.Processor

/-!
The markup of an image read back. The two scans for a closing bracket find exactly the bracket behind
a balanced text, so the label and the address of an image that is written out are found again,
whatever title stands behind the address; where the title keeps the parenthesis open, no address is
found. An image whose markup is not at hand is given one made of its text, which is scanned in the
same way: a text that closes a bracket which it has not opened is cut there.
-/

namespace LivePage
open Html Markdown

/-- The characters of a text that count: neither a backslash nor the character behind one. Nothing,
if the text ends between the two. -/
def unescaped? : Bool → Text → Option Text
  | escaped, [] => if escaped then none else some []
  | true, _ :: s => unescaped? false s
  | false, c :: s => if c = '\\' then unescaped? true s else (unescaped? false s).map (c :: ·)

/-- Read from left to right, a text never closes more brackets than it has opened, and in the end it
has closed all of them. -/
def Balanced (opener closer : Char) (s : Text) : Prop :=
  ∃ t, unescaped? false s = some t ∧ t.count opener = t.count closer ∧
    ∀ p, p <+: t → p.count closer ≤ p.count opener

theorem forall_prefix_cons {c : Char} {t : Text} {P : Text → Prop} :
    (∀ p, p <+: c :: t → P p) ↔ P [] ∧ ∀ p, p <+: t → P (c :: p) := by
  constructor
  · exact fun all => ⟨all [] List.nil_prefix, fun p front => all _ (List.cons_prefix_cons.2 ⟨rfl, front⟩)⟩
  · rintro ⟨first, later⟩ p front
    rcases List.prefix_cons_iff.1 front with rfl | ⟨q, rfl, behind⟩
    · exact first
    · exact later q behind

section Brackets

variable {opener closer : Char}

/-- A text is balanced from some depth on if what is behind its first character is so from the depth
that this one leads to. -/
theorem exists_cons_iff {read : Option Text} {c : Char} {depth depth' up down : Nat}
    (opens : (if c == opener then 1 else 0) = up) (closes : (if c == closer then 1 else 0) = down)
    (enough : down ≤ depth + up) :
    (∃ t, read.map (c :: ·) = some t ∧ depth + t.count opener = depth' + t.count closer ∧
        ∀ p, p <+: t → p.count closer ≤ depth + p.count opener) ↔
      ∃ t, read = some t ∧ depth + up - down + t.count opener = depth' + t.count closer ∧
        ∀ p, p <+: t → p.count closer ≤ depth + up - down + p.count opener := by
  simp only [Option.map_eq_some_iff, exists_exists_and_eq_and, forall_prefix_cons, List.count_cons,
    List.count_nil, Nat.zero_le, true_and, opens, closes]
  refine exists_congr fun t => and_congr_right fun _ => and_congr (by omega) ?_
  exact forall_congr' fun p => forall_congr' fun _ => by omega

variable (distinct : opener ≠ closer) (plain : opener ≠ '\\') (backslash : closer ≠ '\\')
include distinct plain backslash

theorem depthAfter?_eq_some_iff {depth depth' : Nat} {escaped : Bool} {s : Text} :
    depthAfter? opener closer depth escaped s = some (depth', false) ↔
      ∃ t, unescaped? escaped s = some t ∧ depth + t.count opener = depth' + t.count closer ∧
        ∀ p, p <+: t → p.count closer ≤ depth + p.count opener := by
  induction s generalizing depth escaped with
  | nil => cases escaped <;> simp [depthAfter?, unescaped?]
  | cons c s ih =>
      cases escaped with
      | true => exact ih
      | false =>
          rw [depthAfter?, unescaped?]
          by_cases closes : c = closer
          · subst closes
            have apart : (c == opener) = false := beq_false_of_ne distinct.symm
            have other : (if c == opener then 1 else 0) = 0 := by rw [apart]; rfl
            rw [if_pos rfl, if_neg backslash]
            cases depth with
            | zero =>
                rw [if_pos rfl]
                refine iff_of_false (Option.some_ne_none _).symm ?_
                rintro ⟨t, read, _, bound⟩
                obtain ⟨t, _, rfl⟩ := Option.map_eq_some_iff.1 read
                have first := bound [c] (List.cons_prefix_cons.2 ⟨rfl, List.nil_prefix⟩)
                simp [List.count_cons, apart] at first
            | succ depth =>
                rw [if_neg (Nat.succ_ne_zero depth), Nat.add_sub_cancel, ih,
                  exists_cons_iff other (if_pos (beq_self_eq_true c)) (Nat.le_add_left 1 depth)]
                rfl
          · have other : (if c == closer then 1 else 0) = 0 := if_neg (by simpa using closes)
            rw [if_neg closes]
            by_cases escapes : c = '\\'
            · subst escapes
              rw [if_neg (Ne.symm plain), if_pos rfl]
              exact ih
            · rw [decide_eq_false escapes, if_neg escapes, ih]
              by_cases opens : c = opener
              · rw [if_pos opens, exists_cons_iff (if_pos (beq_iff_eq.2 opens)) other (Nat.zero_le _)]
                rfl
              · rw [if_neg opens, exists_cons_iff (if_neg (by simpa using opens)) other
                  (Nat.zero_le _)]
                rfl

theorem balanced_iff {s : Text} :
    Balanced opener closer s ↔ depthAfter? opener closer 0 false s = some (0, false) := by
  rw [depthAfter?_eq_some_iff distinct plain backslash]
  simp only [Nat.zero_add]
  rfl

omit plain in
theorem splitClosing?_eq_some_iff {depth : Nat} {escaped : Bool} {s inside rest : Text} :
    splitClosing? opener closer (depth + 1) escaped s = some (inside, rest) ↔
      s = inside ++ closer :: rest ∧
        depthAfter? opener closer depth escaped inside = some (0, false) := by
  constructor
  · intro found
    induction s generalizing depth escaped inside with
    | nil => cases found
    | cons c s ih =>
        have step {n : Nat} {e : Bool}
            (more : (splitClosing? opener closer (n + 1) e s).map (fun r => (c :: r.1, r.2)) =
              some (inside, rest)) :
            ∃ t, inside = c :: t ∧ s = t ++ closer :: rest ∧
              depthAfter? opener closer n e t = some (0, false) := by
          obtain ⟨⟨t, r⟩, closed, same⟩ := Option.map_eq_some_iff.1 more
          obtain ⟨rfl, rfl⟩ := Prod.mk.inj same
          exact ⟨t, rfl, ih closed⟩
        cases escaped with
        | true =>
            obtain ⟨t, rfl, rfl, inside⟩ := step found
            exact ⟨rfl, inside⟩
        | false =>
            rw [splitClosing?] at found
            by_cases closes : c = closer
            · subst closes
              cases depth with
              | zero =>
                  have here : (decide (c = c) && decide (0 + 1 ≤ 1)) = true := by simp
                  rw [here, if_pos rfl] at found
                  cases found
                  exact ⟨rfl, rfl⟩
              | succ depth =>
                  have deeper : (decide (c = c) && decide (depth + 1 + 1 ≤ 1)) = false := by simp
                  rw [deeper, if_neg Bool.false_ne_true, if_neg (Ne.symm distinct), if_pos rfl,
                    decide_eq_false backslash, Nat.add_sub_cancel] at found
                  obtain ⟨t, rfl, rfl, inside⟩ := step found
                  refine ⟨rfl, ?_⟩
                  rw [depthAfter?, if_pos rfl, if_neg (Nat.succ_ne_zero depth)]
                  exact inside
            · have here : (decide (c = closer) && decide (depth + 1 ≤ 1)) = false := by simp [closes]
              have depths : (if c = opener then depth + 1 + 1 else depth + 1) =
                  (if c = opener then depth + 1 else depth) + 1 := by split <;> rfl
              rw [here, if_neg Bool.false_ne_true] at found
              simp only [closes, if_false, depths] at found
              obtain ⟨t, rfl, rfl, inside⟩ := step found
              refine ⟨rfl, ?_⟩
              rw [depthAfter?, if_neg closes]
              exact inside
  · rintro ⟨rfl, balanced⟩
    have passed := splitClosing?_append distinct backslash balanced (closer :: rest)
    have closes : splitClosing? opener closer (0 + 1) false (closer :: rest) = some ([], rest) := by
      rw [splitClosing?, decide_eq_true rfl]
      rfl
    rw [closes, Option.map_some, List.append_nil] at passed
    exact passed

end Brackets

theorem splitLabel?_eq_some_iff {s label rest : Text} :
    splitLabel? ("![".toList ++ s) = some (label, rest) ↔
      s = label ++ ']' :: rest ∧ Balanced '[' ']' label := by
  rw [balanced_iff (by decide) (by decide) (by decide)]
  exact splitClosing?_eq_some_iff (by decide) (by decide)

theorem splitClosing?_parentheses {s inside rest : Text} :
    splitClosing? '(' ')' 1 false s = some (inside, rest) ↔
      s = inside ++ ')' :: rest ∧ Balanced '(' ')' inside := by
  rw [balanced_iff (by decide) (by decide) (by decide)]
  exact splitClosing?_eq_some_iff (by decide) (by decide)

/-- What is read up to a closing parenthesis begins like the text that the parenthesis ends. -/
theorem head?_of_closed {title inside rest : Text}
    (ends : title ++ ")".toList = inside ++ ')' :: rest) : ∀ c ∈ inside.head?, c ∈ title.head? := by
  cases inside with
  | nil => exact nofun
  | cons d t =>
      cases title with
      | nil => cases t <;> cases ends
      | cons e title =>
          rw [(List.cons.inj ends).1]
          exact fun _ first => first

/-- An image that is written out with a balanced label and a bare, balanced address is read back: the
label always, and the address wherever its parenthesis is closed, as it is behind a balanced title.
No other address is ever read. -/
theorem image_parts_read_back {label address title : Text} (matched : Balanced '[' ']' label)
    (present : address ≠ []) (whole : ∀ c ∈ address, Text.isBlank c = false)
    (bare : address.head? ≠ some '<') (closed : Balanced '(' ')' address)
    (apart : ∀ c ∈ title.head?, Text.isBlank c = true) :
    let content : Text :=
      "![".toList ++ label ++ "](".toList ++ address ++ title ++ ")".toList
    imageAlt? content = some label ∧
    (imageUrl? content = some address ∨ imageUrl? content = none) ∧
    (imageUrl? content = some address ↔ ∃ before rest,
      title ++ ")".toList = before ++ ')' :: rest ∧ Balanced '(' ')' before) ∧
    (Balanced '(' ')' title → imageUrl? content = some address) := by
  intro content
  have form : content = inlineMarkup label (address ++ (title ++ ")".toList)) := by
    simp [content, inlineMarkup]
  have split : splitLabel? content = some (label, '(' :: (address ++ (title ++ ")".toList))) := by
    rw [form, splitLabel?_inlineMarkup]
    exact (balanced_iff (by decide) (by decide) (by decide)).1 matched
  have passed := splitClosing?_append (by decide) (by decide)
    ((balanced_iff (by decide) (by decide) (by decide)).1 closed) (title ++ ")".toList)
  -- wherever the parenthesis is closed, only blanks may stand between it and the address
  have shown : imageUrl? content =
      (splitClosing? '(' ')' 1 false (title ++ ")".toList)).map fun _ => address := by
    rw [imageUrl?, split]
    simp only [passed, Option.map_map]
    refine Option.map_congr fun r found => ?_
    obtain ⟨ends, _⟩ := splitClosing?_parentheses.1 found
    change destinationOf ([] ++ (address ++ r.1)) = address
    exact destinationOf_bare (List.forall_mem_nil _) whole bare present fun c first =>
      apart c (head?_of_closed ends c first)
  have closes : imageUrl? content = some address ↔ ∃ before rest,
      title ++ ")".toList = before ++ ')' :: rest ∧ Balanced '(' ')' before := by
    rw [shown, Option.map_eq_some_iff]
    constructor
    · rintro ⟨⟨before, rest⟩, found, _⟩
      exact ⟨before, rest, splitClosing?_parentheses.1 found⟩
    · rintro ⟨before, rest, found⟩
      exact ⟨(before, rest), splitClosing?_parentheses.2 found, rfl⟩
  refine ⟨?_, ?_, closes, fun balanced => closes.2 ⟨title, [], rfl, balanced⟩⟩
  · rw [imageAlt?, split]
    rfl
  · rw [shown]
    cases splitClosing? '(' ')' 1 false (title ++ ")".toList) with
    | none => exact .inr rfl
    | some r => exact .inl rfl

/-- A label with an escaped bracket, an address with parentheses, and a title that closes one more
than it opens. -/
theorem image_parts_read_back_title :
    let label : Text := "a [b] \\] c"
    let address : Text := "x_(1)\\).png"
    let title : Text := " \"y) z\""
    let content : Text :=
      "![".toList ++ label ++ "](".toList ++ address ++ title ++ ")".toList
    Balanced '[' ']' label ∧ Balanced '(' ')' address ∧ ¬Balanced '(' ')' title ∧
      imageAlt? content = some label ∧ imageUrl? content = some address := by
  intro label address title content
  have matched : Balanced '[' ']' label :=
    (balanced_iff (by decide) (by decide) (by decide)).2 (by decide +kernel)
  have closed : Balanced '(' ')' address :=
    (balanced_iff (by decide) (by decide) (by decide)).2 (by decide +kernel)
  have early : Balanced '(' ')' " \"y" :=
    (balanced_iff (by decide) (by decide) (by decide)).2 (by decide +kernel)
  have unbalanced : ¬Balanced '(' ')' title := fun balanced =>
    absurd ((balanced_iff (by decide) (by decide) (by decide)).1 balanced) (by decide +kernel)
  have apart : ∀ c ∈ title.head?, Text.isBlank c = true := by
    rintro _ ⟨⟩
    rfl
  obtain ⟨alt, _, url, _⟩ := image_parts_read_back matched (by decide) (by decide +kernel) (by decide)
    closed apart
  exact ⟨matched, closed, unbalanced, alt, url.2 ⟨" \"y", " z\")", rfl, early⟩⟩

/-- The label and the address that are read for an image of a text and an address, from markup made
of the text: those, unless the text closes a bracket that it has not opened. Then the label ends
there, and an address in parentheses behind that bracket takes the place of the other. -/
inductive ReadFromText (text url : Text) : Text → Text → Prop where
  | whole : (∀ label rest, Balanced '[' ']' label → text ≠ label ++ ']' :: rest) →
      ReadFromText text url text url
  | cut {label rest : Text} : Balanced '[' ']' label → text = label ++ ']' :: rest →
      (∀ inside behind, Balanced '(' ')' inside → destinationOf inside ≠ [] →
        rest ≠ '(' :: (inside ++ ')' :: behind)) → ReadFromText text url label url
  | readdressed {label inside behind : Text} : Balanced '[' ']' label → Balanced '(' ')' inside →
      destinationOf inside ≠ [] →
      text = label ++ "](".toList ++ inside ++ ")".toList ++ behind →
      ReadFromText text url label (destinationOf inside)

theorem append_singleton_eq_iff {c d : Char} {s before rest : Text} :
    s ++ [d] = before ++ c :: rest ↔
      (s = before ∧ d = c ∧ rest = []) ∨ ∃ r, rest = r ++ [d] ∧ s = before ++ c :: r := by
  rcases List.eq_nil_or_concat' rest with rfl | ⟨r, e, rfl⟩
  · simp
  · have regroup : before ++ c :: (r ++ [e]) = (before ++ c :: r) ++ [e] := by simp
    rw [regroup]
    constructor
    · intro same
      obtain ⟨rfl, last⟩ := List.append_inj' same rfl
      cases last
      exact .inr ⟨r, rfl, rfl⟩
    · rintro (⟨_, _, none⟩ | ⟨r', last, rfl⟩)
      · simp at none
      · obtain ⟨rfl, same⟩ := List.append_inj' last rfl
        cases same
        rfl

theorem imageStyle_of_imageUrl? {s url : Text} (found : imageUrl? ("![".toList ++ s) = some url) :
    imageStyle ("![".toList ++ s) = .inline := by
  unfold imageUrl? at found
  split at found
  · next label rest split =>
      obtain ⟨rfl, _⟩ := splitLabel?_eq_some_iff.1 split
      exact imageStyle_inlineMarkup label rest
  · cases found

theorem resolveSource_eq_getD {image : ImageToken} {url : Text}
    (inline : ∀ u, imageUrl? image.content = some u → imageStyle image.content = .inline)
    (source : image.attr? "src" = some url) :
    resolveSource image = ((imageUrl? image.content).filter fun u => !u.isEmpty).getD url := by
  unfold resolveSource
  rw [source]
  cases shown : imageUrl? image.content with
  | none => cases imageStyle image.content <;> rfl
  | some u => 
      rw [inline u shown]
      simp only
      cases u <;> rfl

/-- Behind a label that ends early, an address is read from the parentheses that follow it. -/
theorem filter_imageUrl?_eq_some_iff {content label rest url : Text}
    (split : splitLabel? content = some (label, rest ++ [']'])) :
    (imageUrl? content).filter (fun u => !u.isEmpty) = some url ↔ ∃ inside behind,
      rest = '(' :: (inside ++ ')' :: behind) ∧ Balanced '(' ')' inside ∧
        destinationOf inside = url ∧ url ≠ [] := by
  rw [Option.filter_eq_some_iff, imageUrl?, split]
  constructor
  · rintro ⟨shown, present⟩
    split at shown
    · next s same =>
        obtain ⟨⟨inside, after⟩, found, rfl⟩ := Option.map_eq_some_iff.1 shown
        obtain ⟨rfl, closed⟩ := splitClosing?_parentheses.1 found
        have rest' : rest ++ [']'] = ('(' :: inside) ++ ')' :: after :=
          (Prod.mk.inj (Option.some.inj same)).2
        -- the bracket at the end is not the parenthesis that was found
        rcases append_singleton_eq_iff.1 rest' with
          ⟨_, other, _⟩ | ⟨behind, _, shape⟩
        · cases other
        · exact ⟨inside, behind, shape, closed, rfl, by simpa using present⟩
    · cases shown
  · rintro ⟨inside, behind, rfl, closed, rfl, present⟩
    have found : splitClosing? '(' ')' 1 false ((inside ++ ')' :: behind) ++ [']']) =
        some (inside, behind ++ [']']) :=
      splitClosing?_parentheses.2 ⟨by simp, closed⟩
    exact ⟨congrArg (Option.map _) found, by simpa using present⟩

theorem readFromText {image : ImageToken} {text url : Text}
    (content : image.content = "![".toList ++ text ++ "]".toList)
    (alt : image.attr? "alt" = some text) (source : image.attr? "src" = some url) :
    ReadFromText text url (resolveAlt image) (resolveSource image) := by
  rw [List.append_assoc] at content
  have inline (u : Text) : imageUrl? image.content = some u → imageStyle image.content = .inline := by
    rw [content]
    exact imageStyle_of_imageUrl?
  have early {label rest : Text} (balanced : Balanced '[' ']' label)
      (shape : text = label ++ ']' :: rest) :
      splitLabel? image.content = some (label, rest ++ "]".toList) := by
    rw [content, splitLabel?_eq_some_iff, shape, List.append_assoc]
    exact ⟨rfl, balanced⟩
  rw [resolveSource_eq_getD inline source, resolveAlt, imageAlt?, alt]
  cases split : splitLabel? image.content with
  | none =>
      have absent : imageUrl? image.content = none := by rw [imageUrl?, split]
      rw [absent]
      refine .whole fun label rest balanced shape => ?_
      rw [early balanced shape] at split
      cases split
  | some found =>
      obtain ⟨label, rest⟩ := found
      have cut := split
      rw [content, splitLabel?_eq_some_iff] at cut
      obtain ⟨whole, balanced⟩ := cut
      have ends : text ++ [']'] = label ++ ']' :: rest := whole
      obtain ⟨rfl, _, rfl⟩ | ⟨rest, rfl, shape⟩ := append_singleton_eq_iff.1 ends
      · have absent : imageUrl? image.content = none := by rw [imageUrl?, split]
        rw [absent]
        refine .whole fun label rest balanced shape => ?_
        rw [early balanced shape] at split
        simp at split
      · cases shown : (imageUrl? image.content).filter fun u => !u.isEmpty with
        | none =>
            refine .cut balanced shape fun inside behind closed present rest' => ?_
            have moved := (filter_imageUrl?_eq_some_iff split).2
              ⟨inside, behind, rest', closed, rfl, present⟩
            rw [shown] at moved
            cases moved
        | some u =>
            obtain ⟨inside, behind, rfl, closed, rfl, present⟩ :=
              (filter_imageUrl?_eq_some_iff split).1 shown
            have written : text = label ++ "](".toList ++ inside ++ ")".toList ++ behind := by
              simp [shape]
            exact .readdressed balanced closed present written

namespace ReadFromText

variable {text url alt source : Text} (read : ReadFromText text url alt source)
include read

/-- The text is read back if it does not close a bracket early, and only then. -/
theorem alt_eq_iff :
    alt = text ↔ ∀ label rest, Balanced '[' ']' label → text ≠ label ++ ']' :: rest := by
  have shorter {label rest : Text} : label ≠ label ++ ']' :: rest := fun same => by
    have lengths := congrArg List.length same
    simp at lengths
  cases read with
  | whole free => exact iff_of_true rfl free
  | cut balanced shape _ =>
      subst shape
      exact iff_of_false shorter fun free => free _ _ balanced rfl
  | @readdressed _ inside behind balanced _ _ shape =>
      have shape : text = alt ++ ']' :: ("(".toList ++ inside ++ ")".toList ++ behind) := by
        simp [shape]
      subst shape
      exact iff_of_false shorter fun free => free _ _ balanced rfl

theorem source_eq (same : alt = text) : source = url := by
  have free := read.alt_eq_iff.1 same
  cases read with
  | whole _ => rfl
  | cut balanced shape _ => exact absurd shape (free _ _ balanced)
  | @readdressed _ inside behind balanced _ _ shape =>
      refine absurd ?_ (free alt ("(".toList ++ inside ++ ")".toList ++ behind) balanced)
      simp [shape]

end ReadFromText

variable {m : Type → Type} [Monad m] [LawfulMonad m]

/-- An image whose span shows no markup has its text and the address found by the parser, unless the
text closes a bracket that it has not opened: in that case both are read from the text. -/
theorem image_without_markup (options : Options) {source : Text} {starts : List Nat} {span : Span}
    (absent : imageMarkup? source starts span = none) (target : Target)
    (children : List Markdown.Node) :
    let node : Markdown.Node := .mk (.image target) span children
    let text := node.inlineText
    ∃ (html : Text) (attributes : Attributes) (alt src : Text),
      renderImage (m := m) ⟨.html, options, none⟩ (.image (imageToken source starts node target)) =
        pure html ∧
      tokenize html = [opening "span" [⟨"class", "markdown-image-wrapper"⟩],
        opening "img" attributes, .closeTag "span"] ∧
      attributes.get? "alt" = some (readValue alt) ∧
      attributes.get? "src" = some (readValue (sanitizeUrl src)) ∧
      attributes.get? "data-preview-src" = some (readValue (sanitizeUrl src)) ∧
      ReadFromText text target.url alt src ∧
      (alt = text ↔ ∀ label rest, Balanced '[' ']' label → text ≠ label ++ ']' :: rest) ∧
      (alt = text → src = target.url) ∧ (']' ∉ text → alt = text) := by
  intro node text
  let image := imageToken source starts node target
  have content : image.content = "![".toList ++ text ++ "]".toList := by
    change (imageMarkup? source starts span).getD _ = _
    rw [absent]
    rfl
  have read : ReadFromText text target.url (resolveAlt image) (resolveSource image) :=
    readFromText content rfl rfl
  obtain ⟨attributes, tokens, alt, src, preview⟩ :=
    tokenize_image (sanitizeUrl (resolveSource image)) (resolveAlt image) (imageTitle image)
  refine ⟨_, attributes, _, _, renderImage_markup options image, tokens, alt, src, preview, read,
    read.alt_eq_iff, read.source_eq, fun plain => read.alt_eq_iff.2 fun label rest _ shape => ?_⟩
  exact plain (shape ▸ by simp)

/-- A text that closes a bracket and goes on with an address. -/
theorem image_without_markup_bracket :
    let target : Target := ⟨"c", []⟩
    let node : Markdown.Node := .mk (.image target) ⟨⟨1, 5⟩, ⟨1, 17⟩⟩
      [.mk (.text "a") default [], .mk (.text "](b)") default []]
    let source : Text := "\\|\\|\\| ![a\\](b)](\n   c)\n| h |\n|---|\n| d |\n"
    let starts := Text.lineStarts source
    imageMarkup? source starts node.span = none ∧ node.inlineText = "a](b)".toList ∧
    ∃ (html : Text) (alt src : Text),
      renderImage (m := Id) ⟨.html, {}, none⟩ (.image (imageToken source starts node target)) =
        pure html ∧
      ReadFromText "a](b)" "c" alt src ∧ alt ≠ "a](b)".toList := by
  intro target node source starts
  have absent : imageMarkup? source starts node.span = none := by decide +kernel
  obtain ⟨html, _, alt, src, rendered, _, _, _, _, read, whole, _⟩ :=
    image_without_markup (m := Id) {} absent target node.children
  refine ⟨absent, by decide +kernel, html, alt, src, rendered, read, fun same => ?_⟩
  have balanced : Balanced '[' ']' "a" :=
    (balanced_iff (by decide) (by decide) (by decide)).2 (by decide +kernel)
  exact whole.1 same "a" "(b)" balanced rfl

/-- In front of a table bars lose their escapes, and a line break in an address is not counted, so
the span of this image shows no markup: the label and the address are taken from its text. -/
theorem Processor.image_readdressed :
    let p : Processor Id := .ofOptions {}
    let source : Text := "\\|\\|\\| ![a\\](b)](\n   c)\n| h |\n|---|\n| d |\n"
    let tree := p.styled source (parse p.options.parseOptions source)
    let html := (p.render source).html
    (∃ node ∈ tree.preorder, node.value = .image ⟨"c", []⟩ ∧ node.inlineText = "a](b)".toList ∧
      imageMarkup? source (Text.lineStarts source) node.span = none) ∧
    Text.contains (attr "src" "b") html = true ∧ Text.contains (attr "alt" "a") html = true ∧
    Text.contains (attr "src" "c") html = false ∧ Text.contains (attr "alt" "a](b)") html = false := by
  decide +kernel

end LivePage

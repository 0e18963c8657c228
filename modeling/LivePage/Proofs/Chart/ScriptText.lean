import LivePage.Chart.Activation
import LivePage.Proofs.Chart.Embedding
import LivePage.Proofs.Html.Scripts
import LivePage.Proofs.Json.Printing
import LivePage.Proofs.Render.Templates
import LivePage.Proofs.Text.Replace

/-!
The script that holds a declaration, written down and read again. No end tag stands in its text, so
it never ends early. It ends where it should unless a string in the declaration opens a comment in
which a script begins: then the reader goes on in the page behind it.
-/

namespace LivePage
open Html

/-- The replacement keeps first characters, so it does not put a slash behind a bracket. -/
theorem head?_replaceEndTag (s : Text) : (Text.replace "</" "<\\/" s).head? = s.head? := by
  have present : "</".toList ≠ [] := by decide
  have same : "<\\/".toList.head? = "</".toList.head? := by decide
  exact Text.head?_replace present same s

theorem contains_replaceFrom_endTag {skip : Nat} (few : skip ≤ 1) (s : Text) :
    Text.contains "</" (Text.replaceFrom "</" "<\\/" skip s) = false := by
  induction s generalizing skip with
  | nil => rfl
  | cons c s ih =>
      cases skip with
      | succ skip => exact ih (Nat.le_of_succ_le few)
      | zero =>
          rw [Text.replaceFrom]
          split
          · have rest := ih (Nat.le_refl 1)
            simpa [Text.contains, List.isPrefixOf] using rest
          · next missing =>
              have rest := ih (Nat.zero_le 1)
              rw [Text.contains, rest, Bool.or_false]
              have head := head?_replaceEndTag s
              unfold Text.replace at head
              cases shown : Text.replaceFrom "</" "<\\/" 0 s with
              | nil => simp [List.isPrefixOf]
              | cons d r =>
                  rw [shown, List.head?_cons] at head
                  cases s with
                  | nil => cases head
                  | cons d' s =>
                      cases head
                      simpa [List.isPrefixOf] using missing

theorem contains_scriptText (d : Declaration) : Text.contains "</" (scriptText d) = false :=
  contains_replaceFrom_endTag (Nat.zero_le 1) _

theorem printable_scriptText (d : Declaration) : (scriptText d).Printable := by
  have new : Text.Printable "<\\/" := by decide
  have old : d.print.Printable := Json.printable_print (.object d)
  intro c member
  rcases Text.mem_replaceFrom member with member | member
  · exact new c member
  · exact old c member

theorem scriptText_ne_nil (d : Declaration) : scriptText d ≠ [] := by
  have head : (scriptText d).head? = some '\x7b' := head?_replaceEndTag d.print
  intro none
  rw [none] at head
  cases head

def scriptTag : Tag := ⟨"script", scriptElement.attributes, false⟩

theorem write_embed {d : Dom} {container : NodeId} (present : container < d.size)
    (declaration : Declaration) :
    (d.embed container declaration).write d.size =
      tokenMarkup (.openTag scriptTag) ++ (scriptText declaration ++ scriptEnd) := by
  have embeds := Dom.embeds_embed present declaration
  have inside : (d.embed container declaration).contentsOf scriptElement d.size = [d.size + 1] :=
    embeds.inside
  have raw : hasRawText ⟨scriptElement.space, scriptElement.name⟩ = true := by decide
  have filled : isVoid ⟨scriptElement.space, scriptElement.name⟩ = false := by decide
  have opening : '<' :: scriptElement.name ++ scriptElement.attributes.flatMap writeAttribute ++ ['>'] =
      tokenMarkup (.openTag scriptTag) := by decide
  have text : (d.embed container declaration).writeTo (d.size + 1) true false (d.size + 1) =
      scriptText declaration := by
    rw [Dom.writeTo, embeds.body]
    rfl
  rw [Dom.write, Dom.size_embed, Dom.writeTo, embeds.element]
  simp only [inside, List.flatMap_singleton, raw, filled, Bool.or_false, Bool.false_eq_true,
    if_false, text, opening, List.append_assoc]
  rfl

theorem nextToken_scriptTag (foreign : Bool) (s : Text) :
    nextToken .markup foreign (tokenMarkup (.openTag scriptTag) ++ s) =
      (some (.openTag scriptTag), s) :=
  nextToken_openTag foreign scriptTag (by decide) s

theorem nextToken_scriptEnd (foreign : Bool) (rest : Text) :
    nextToken .script foreign (scriptEnd ++ rest) = (some (.closeTag "script"), rest) := by
  have split : splitScript .plain (scriptEnd ++ rest) = ([], scriptEnd ++ rest) :=
    splitScript_scriptEnd (show ScriptState.plain.AtEnd false from rfl) rest
  have valid : isMarkupName "script" = true := by decide
  have read : readTag ("script>".toList ++ rest) = some (⟨"script", [], false⟩, rest) :=
    readTag_markup valid [] nofun .nil rest
  have ended : readEndTag ("script>".toList ++ rest) = (some (.closeTag "script"), rest) := by
    rw [readEndTag, read]
  calc nextToken .script foreign (scriptEnd ++ rest)
      = textOrEndTag replaceNull (splitScript .plain (scriptEnd ++ rest)) := rfl
    _ = readEndTag ("script>".toList ++ rest) := by rw [split]; rfl
    _ = (some (.closeTag "script"), rest) := ended

theorem nextToken_script {foreign : Bool} {s before rest : Text} (present : before ≠ [])
    (split : splitScript .plain s = (before, rest)) :
    nextToken .script foreign s = (some (.text (replaceNull before)), rest) := by
  have read : nextToken .script foreign s = textOrEndTag replaceNull (before, rest) := by
    rw [← split]
    rfl
  rw [read]
  cases before with
  | nil => exact absurd rfl present
  | cons c before => rfl

theorem nextToken_scriptText {d : Declaration} (shown : hidesEnd (scriptText d) = false)
    (foreign : Bool) (rest : Text) :
    nextToken .script foreign (scriptText d ++ (scriptEnd ++ rest)) =
      (some (.text (scriptText d)), scriptEnd ++ rest) := by
  have free := contains_scriptText d
  have fits : ScriptState.plain.Fits (scriptText d) := trivial
  have ends := ScriptState.atEnd_after fits free ("/script>".toList ++ rest)
  have split := splitScript_append .plain free ("/script>".toList ++ rest)
  have none : '\x00' ∉ scriptText d := fun member => (printable_scriptText d).plain _ member |>.1 rfl
  change ScriptState.AtEnd (hidesEnd (scriptText d)) _ at ends
  rw [shown] at ends
  have stops := splitScript_scriptEnd ends rest
  change splitScript .plain (scriptText d ++ (scriptEnd ++ rest)) = _ at split
  change splitScript _ ('<' :: ("/script>".toList ++ rest)) = _ at stops
  rw [stops, List.append_nil] at split
  rw [nextToken_script (scriptText_ne_nil d) split, replaceNull_of_absent none]

theorem nextToken_scriptText_hidden {d : Declaration} (hidden : hidesEnd (scriptText d) = true)
    (foreign : Bool) (rest : Text) :
    ∃ more behind, nextToken .script foreign (scriptText d ++ (scriptEnd ++ rest)) =
      (some (.text (scriptText d ++ (scriptEnd ++ more))), behind) := by
  have free := contains_scriptText d
  have fits : ScriptState.plain.Fits (scriptText d) := trivial
  have ends := ScriptState.atEnd_after fits free ("/script>".toList ++ rest)
  have split := splitScript_append .plain free ("/script>".toList ++ rest)
  have none : '\x00' ∉ scriptText d := fun member => (printable_scriptText d).plain _ member |>.1 rfl
  change ScriptState.AtEnd (hidesEnd (scriptText d)) _ at ends
  rw [hidden] at ends
  obtain ⟨more, behind, runs⟩ := splitScript_scriptEnd_hidden ends rest
  change splitScript .plain (scriptText d ++ (scriptEnd ++ rest)) = _ at split
  change splitScript _ ('<' :: ("/script>".toList ++ rest)) = _ at runs
  rw [runs] at split
  have present : scriptText d ++ (scriptEnd ++ more) ≠ [] := by simp [scriptText_ne_nil d]
  have same : replaceNull (scriptText d ++ (scriptEnd ++ more)) =
      scriptText d ++ (scriptEnd ++ replaceNull more) := by
    have first := replaceNull_of_absent none
    rw [replaceNull, List.map_append, List.map_append]
    exact congrArg₂ (· ++ ·) first rfl
  exact ⟨replaceNull more, behind, same ▸ nextToken_script present split⟩

/-- What a reader makes of the script that is embedded for a declaration, written down before any
text. The tag is read as it was written and leaves the text, in which no end tag stands. The script
ends at the end tag written for it, with the text that was embedded, exactly if that text hides
nothing; otherwise that end tag is read as text, and the script goes on behind it. -/
theorem embedded_script_reads {m : Type → Type} [Pure m] (dom : Dom) {container : NodeId}
    (present : container < dom.size) (declaration : Declaration) (rest : Text) :
    ∃ (embedded : Dom) (script : NodeId),
      (embedScript dom container declaration : m Drawing) = pure ⟨embedded, none⟩ ∧
      embedded.children container = dom.children container ++ [script] ∧
      nextToken .markup false (embedded.write script ++ rest) =
        (some (.openTag scriptTag), scriptText declaration ++ (scriptEnd ++ rest)) ∧
      Text.contains "</" (scriptText declaration) = false ∧
      nextToken .script false (scriptEnd ++ rest) = (some (.closeTag "script"), rest) ∧
      (nextToken .script false (scriptText declaration ++ (scriptEnd ++ rest)) =
          (some (.text (scriptText declaration)), scriptEnd ++ rest) ↔
        hidesEnd (scriptText declaration) = false) ∧
      (hidesEnd (scriptText declaration) = true →
        ∃ more behind, nextToken .script false (scriptText declaration ++ (scriptEnd ++ rest)) =
          (some (.text (scriptText declaration ++ (scriptEnd ++ more))), behind)) := by
  have embeds := Dom.embeds_embed present declaration
  have written := write_embed present declaration
  refine ⟨dom.embed container declaration, dom.size, rfl, embeds.behind, ?_,
    contains_scriptText declaration, nextToken_scriptEnd false rest, ⟨?_, ?_⟩, ?_⟩
  · have read := nextToken_scriptTag false (scriptText declaration ++ (scriptEnd ++ rest))
    rw [written]
    simpa only [List.append_assoc] using read
  · intro exactly
    by_contra hidden
    obtain ⟨more, behind, runs⟩ :=
      nextToken_scriptText_hidden (Bool.not_eq_false _ ▸ hidden) false rest
    rw [exactly] at runs
    have same : scriptText declaration = scriptText declaration ++ (scriptEnd ++ more) :=
      Html.Token.text.inj (Option.some.inj (Prod.mk.inj runs).1)
    have length := congrArg List.length same
    have long : scriptEnd.length = 9 := rfl
    rw [List.length_append, List.length_append] at length
    omega
  · intro shown
    exact nextToken_scriptText shown false rest
  · intro hidden
    exact nextToken_scriptText_hidden hidden false rest

/-- An end tag in a string of the declaration does not end its script. -/
theorem embedded_script_reads_endTag :
    let dom := (Dom.empty.addElement .html "div" []).1
    let declaration : Declaration := [("t", .string "</script>")]
    0 < dom.size ∧ hidesEnd (scriptText declaration) = false ∧
      nextToken .script false (scriptText declaration ++ (scriptEnd ++ "<p>".toList)) =
        (some (.text "\x7b\"t\":\"<\\/script>\"\x7d"), scriptEnd ++ "<p>".toList) := by
  intro dom declaration
  have text : hidesEnd (scriptText declaration) = false ∧
      scriptText declaration = "\x7b\"t\":\"<\\/script>\"\x7d".toList := by decide +kernel
  have present : 0 < dom.size := by decide
  obtain ⟨embedded, script, _, _, _, _, _, ends, _⟩ :=
    embedded_script_reads (m := Id) dom present declaration "<p>"
  refine ⟨present, text.1, (ends.2 text.1).trans ?_⟩
  rw [text.2]

/-- A string that opens a comment and a script in it hides the end tag: the paragraph behind the
script is lost in it. -/
theorem embedded_script_swallows :
    let page := Document.parse "<p>"
    let declaration : Declaration := [("t", .string "<!--<script>")]
    let embedded := (embedScript (m := Id) page.dom 3 declaration).dom
    let rest : Text := "<p id=\"after\">x</p>"
    3 < page.dom.size ∧
      nextToken .script false (scriptText declaration ++ (scriptEnd ++ rest)) ≠
        (some (.text (scriptText declaration)), scriptEnd ++ rest) ∧
      (Document.parse (embedded.write page.dom.size ++ rest)).findById? "after" = none := by
  decide +kernel

end LivePage

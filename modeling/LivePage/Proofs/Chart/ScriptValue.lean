import LivePage.Proofs.Chart.ScriptText
import LivePage.Proofs.Json.Reading
import LivePage.Proofs.Json.ShieldedReading

/-!
What the text of an embedded script says. It holds no end tag, and read as JSON it says what the
declaration says: the text of the declaration is shielded as a whole, and the reader does not tell the
two apart. Whether the text of a declaration reads back to it depends on its keys, its numbers and
its depth.
-/

namespace LivePage
open Html

theorem scriptText_eq_shielded (d : Declaration) : scriptText d = Json.shielded d.print := rfl

theorem toOption_parse_scriptText (d : Declaration) :
    (Json.parse (scriptText d)).toOption = (Json.parse d.print).toOption := by
  rw [scriptText_eq_shielded, Json.toOption_parse_shielded]

theorem eq_ok_of_toOption {α ε : Type} {x : Except ε α} {a : α} (found : x.toOption = some a) :
    x = .ok a := by
  cases x with
  | error e => cases found
  | ok b =>
      cases found
      rfl

theorem parse_scriptText {d : Declaration} (back : Json.ReadsBack (.object d) 127) :
    Json.parse (scriptText d) = .ok (.object d) := by
  have read : Json.parse d.print = .ok (.object d) := Json.parse_print back
  apply eq_ok_of_toOption
  rw [toOption_parse_scriptText, read]
  rfl

/-- The element gets a script behind its children, in which one text stands. No end tag is in that
text. Read as JSON, as a value or as an object, it gives what the text of the declaration gives, or
neither is read; and it gives the declaration itself if its text can be read back at all. -/
theorem embedded_declaration_kept {m : Type → Type} [Pure m] (dom : Dom) {container : NodeId}
    (present : container < dom.size) (declaration : Declaration) :
    ∃ (embedded : Dom) (script text : NodeId),
      (embedScript dom container declaration : m Drawing) = pure ⟨embedded, none⟩ ∧
      embedded.children container = dom.children container ++ [script] ∧
      embedded.children script = [text] ∧
      embedded.content? text = some (.text (scriptText declaration)) ∧
      Text.contains "</" (scriptText declaration) = false ∧
      (Json.parse (scriptText declaration)).toOption =
        (Json.parse declaration.print).toOption ∧
      (Json.parseObject (scriptText declaration)).toOption =
        (Json.parseObject declaration.print).toOption ∧
      (Json.ReadsBack (.object declaration) 127 →
        Json.parse (scriptText declaration) = .ok (.object declaration)) := by
  have embeds := Dom.embeds_embed present declaration
  exact ⟨dom.embed container declaration, dom.size, dom.size + 1, rfl, embeds.behind,
    embeds.inside, embeds.body, contains_scriptText declaration,
    toOption_parse_scriptText declaration, Json.toOption_parseObject_shielded declaration.print,
    parse_scriptText⟩

/-- End tags in a key and behind a backslash, in a list and in an object. -/
theorem embedded_declaration_kept_nested :
    let dom := (Dom.empty.addElement .html "div" []).1
    let declaration : Declaration :=
      [("</a>", .string "\\</b>"),
        ("list", .array [.number (.int 3), .object [("</", .string "<</")]])]
    0 < dom.size ∧
      scriptText declaration =
        "\x7b\"<\\/a>\":\"\\\\<\\/b>\",\"list\":[3,\x7b\"<\\/\":\"<<\\/\"\x7d]\x7d".toList ∧
      Json.parse (scriptText declaration) = .ok (.object declaration) := by
  intro dom declaration
  have present : 0 < dom.size := by decide
  have text : scriptText declaration =
      "\x7b\"<\\/a>\":\"\\\\<\\/b>\",\"list\":[3,\x7b\"<\\/\":\"<<\\/\"\x7d]\x7d".toList := by
    decide +kernel
  have three : (JsonNumber.int 3).ReadsBack := by decide
  have back : Json.ReadsBack (.object declaration) 127 :=
    ⟨by decide, trivial, ⟨three, ⟨by decide, trivial, trivial⟩, trivial⟩, trivial⟩
  obtain ⟨_, _, _, _, _, _, _, _, _, _, read⟩ :=
    embedded_declaration_kept (m := Id) dom present declaration
  exact ⟨present, text, read back⟩

end LivePage

import LivePage.Actions.Standard
import LivePage.Proofs.Html.Ancestors
import LivePage.Proofs.Render.BlockIdentifiers
import LivePage.Proofs.Render.Fences

/-!
Copying from a page of rendered fences. A click on a button of the page, or on what stands inside
it, belongs to that button; the button points to one element of the page, whatever texts stand
there, and the text of that element is the content of the fence that the button was written for.
-/

namespace LivePage
open Html

theorem nodup_blockIds {fences : List (FenceToken × Nat)} (distinct : (fences.map (·.2)).Nodup) :
    (fences.map fun f => blockId none f.2).Nodup := by
  have injective : Function.Injective (blockId none) := fun _ _ same => (blockId_inj same).2
  have mapped := distinct.map injective
  rwa [List.map_map] at mapped

theorem find?_of_forall₂ {α β : Type} {R : α → β → Prop} {key : α → Option Text} {name : β → Text}
    {qs : List α} {fs : List β}
    (related : List.Forall₂ (fun q f => key q = some (name f) ∧ R q f) qs fs)
    (distinct : (fs.map name).Nodup) {f : β} (member : f ∈ fs) :
    ∃ q ∈ qs, qs.find? (fun q => key q = some (name f)) = some q ∧ R q f := by
  induction related with
  | nil => cases member
  | @cons q g qs fs first _ ih =>
      rw [List.map_cons, List.nodup_cons] at distinct
      rcases List.mem_cons.1 member with rfl | member
      · exact ⟨q, List.mem_cons_self, List.find?_cons_of_pos (decide_eq_true first.1), first.2⟩
      · obtain ⟨r, listed, found, holds⟩ := ih distinct.2 member
        have other : ¬key q = some (name f) := by
          intro same
          rw [first.1] at same
          exact distinct.1 (Option.some.inj same ▸ List.mem_map_of_mem member)
        refine ⟨r, List.mem_cons_of_mem q listed, ?_, holds⟩
        rw [List.find?_cons_of_neg (by simpa using other), found]

theorem attribute?_buttonTree {d : Dom} {b : Nat} {id label : Text}
    (held : (buttonTree id label).HeldAt d b) :
    d.attribute? b actionAttribute = some copyCode ∧ d.attribute? b targetAttribute = some id := by
  have shown : d.element? b = some { name := "button", attributes := buttonAttributes id } :=
    held.element?
  rw [Dom.attribute?, Dom.attribute?, shown]
  exact ⟨rfl, rfl⟩

theorem reaches_buttonTree {d : Dom} {b clicked : Nat} {id label : Text}
    (held : (buttonTree id label).HeldAt d b) (reaches : d.Reaches b clicked) :
    clicked = b ∨ clicked ∈ d.children b ∧ d.element? clicked = none := by
  obtain ⟨_, children, inner⟩ := held
  rcases Relation.ReflTransGen.cases_head reaches with rfl | ⟨c, child, more⟩
  · exact .inl rfl
  · have inside : c ∈ Tree.roots (b + 1) (Piece.textTrees label) := by
      rw [← children]
      exact child
    unfold Piece.textTrees at inside inner
    split at inside
    · cases inside
    · next present =>
        rw [if_neg present] at inner
        rw [Tree.roots, Tree.roots, List.mem_singleton] at inside
        subst inside
        obtain ⟨⟨content, leaf⟩, _⟩ := inner
        rcases Relation.ReflTransGen.cases_head more with rfl | ⟨c, below, _⟩
        · exact .inr ⟨child, by rw [Dom.element?, content]⟩
        · rw [Dom.IsChild, leaf] at below
          cases below

theorem actionAt?_buttonTree {d : Document} {b clicked : Nat} {id label : Text}
    (held : (buttonTree id label).HeldAt d.dom b) (reaches : d.dom.Reaches b clicked) :
    Registry.actionAt? d clicked = some (b, copyCode) := by
  have action := (attribute?_buttonTree held).1
  rcases reaches_buttonTree held reaches with rfl | ⟨child, text⟩
  · exact Dom.nearestTo?_size_iff.2 (.here action)
  · -- the text names no action, and the button is its parent
    have silent : d.dom.attribute? clicked actionAttribute = none := by
      rw [Dom.attribute?, text]
      rfl
    exact Dom.nearestTo?_size_iff.2
      (.above silent (Dom.parent?_of_mem_children child) (.here action))

variable {L : Type}

/-- The texts that have been written to the clipboard. -/
def Host.writes (h : Host L) : List Text :=
  h.effects.filterMap fun e => match e with
    | .write text => some text
    | _ => none

theorem Host.writes_conclude (h : Host L) (w : PendingWrite) (error : Option ClipboardError) :
    (h.conclude w error).writes = h.writes := by
  cases error with
  | none => simp [conclude, emit, writes]
  | some e => simp [conclude, emit, writes]

theorem Host.writes_write (h : Host L) (text : Text) (w : PendingWrite) :
    (h.write text w).writes = h.writes ++ [text] := by
  have emitted : (h.emit (.write text)).writes = h.writes ++ [text] := by simp [emit, writes]
  cases shown : (h.emit (.write text)).clipboard with
  | prompt error => simp only [Host.write, shown, writes_conclude, emitted]
  | deferred =>
      simp only [Host.write, shown]
      exact emitted

theorem dispatch_buttonTree {d : Document} {b clicked c : Nat} {id label : Text}
    (held : (buttonTree id label).HeldAt d.dom b) (reaches : d.dom.Reaches b clicked)
    (found : d.findById? id = some c) (messages : CopyMessages) (host : Host L) :
    (Registry.standard messages).dispatch d clicked host =
      (host.write (d.dom.textContent c) ⟨id, messages⟩, .ok (some copyCode)) := by
  have handler : (Registry.standard (L := L) messages).find? copyCode =
      some (copyHandler messages) := rfl
  have target := (attribute?_buttonTree held).2
  rw [Registry.dispatch, actionAt?_buttonTree held reaches]
  simp only [handler, copyHandler, target, copyElement, found]

theorem dispatch_fences {options : Options} {fences : List (FenceToken × Nat)} {d : Document}
    (holds : d.Holds (pageTree (fencesTrees options fences)))
    (distinct : (fences.map (·.2)).Nodup) (plain : ∀ f ∈ fences, f.1.content.Plain) :
    List.Forall₂ (fun button f =>
        d.dom.attribute? button targetAttribute = some (blockId none f.2) ∧
        ∀ clicked, d.dom.Reaches button clicked → ∀ (messages : CopyMessages) (host : Host L),
          (Registry.standard messages).dispatch d clicked host =
            (host.write f.1.content ⟨blockId none f.2, messages⟩, .ok (some copyCode)))
      (d.named "button") (fences.filter fun f => !isChartFence options f.1) := by
  have below : ∀ q ∈ Tree.subtreesAll 4 (fencesTrees options fences),
      q ∈ (pageTree (fencesTrees options fences)).subtrees 1 := by
    intro q member
    rw [Document.subtrees_page]
    exact List.mem_append_right _ member
  have buttons := buttons_fencesTrees options fences 4
  have ids := ids_fencesTrees options plain 4
  rw [Document.named_page holds (by decide), List.forall₂_map_left_iff]
  refine List.forall₂_iff_zip.2 ⟨buttons.length_eq, fun {q f} pair => ?_⟩
  obtain ⟨label, tree⟩ := List.forall₂_zip buttons pair
  obtain ⟨button, code⟩ := List.of_mem_zip pair
  obtain ⟨listed, kind⟩ := List.mem_filter.1 code
  have here : (buttonTree (blockId none f.2) label).HeldAt d.dom q.1 :=
    tree ▸ holds.held.of_mem_subtrees q (below q (List.mem_of_mem_filter button))
  -- the first element with the identifier is the one of this fence
  obtain ⟨r, member, found, text⟩ := find?_of_forall₂ ids (nodup_blockIds distinct) listed
  have target : d.findById? (blockId none f.2) = some r.1 := by
    rw [Document.findById?_page holds, found]
    rfl
  have inside := below r (List.mem_of_mem_filter member)
  have room : r.2.size ≤ d.dom.size := by
    rw [holds.size]
    exact Nat.le_succ_of_le (Tree.size_le_of_mem_subtrees r inside)
  have content : d.dom.textContent r.1 = f.1.content := by
    rw [(holds.held.of_mem_subtrees r inside).textContent room, text (by simpa using kind)]
  refine ⟨(attribute?_buttonTree here).2, ?_⟩
  intro clicked reaches messages host
  rw [dispatch_buttonTree here reaches target, content]

/-- Fences with different numbers are rendered, their blocks are put together to one page, and the
page is read. A fence is a code block unless its label is that of charts. The buttons of the page
are those of the code blocks, in their order. Each points to its block, and a click on it, or on
anything inside it, writes the content of the fence to the clipboard, once. -/
theorem clicks_copy_fences {m : Type → Type} [Monad m] [LawfulMonad m] (options : Options)
    {fences : List (FenceToken × Nat)} (distinct : (fences.map (·.2)).Nodup)
    (plain : ∀ f ∈ fences, f.1.content.Plain) :
    ∃ blocks : List Block,
      fences.mapM (fun f => renderFence (m := m) ⟨.html, options, none⟩ f.1 (blockId none f.2)) =
        pure blocks ∧
      (∀ written ∈ fences.zip blocks,
        written.2.kind = .chart ↔ isChartFence options written.1.1 = true) ∧
      let d := Document.parse (blocks.flatMap (·.html))
      List.Forall₂ (fun button written =>
          d.dom.attribute? button targetAttribute = some written.2.id ∧
          ∀ clicked, d.dom.Reaches button clicked → ∀ (messages : CopyMessages) (host : Host L),
            let after := (Registry.standard messages).dispatch d clicked host
            after.2 = .ok (some copyCode) ∧
              after.1 = host.write written.1.1.content ⟨written.2.id, messages⟩ ∧
              after.1.writes = host.writes ++ [written.1.1.content])
        (d.named "button") ((fences.zip blocks).filter fun written => written.2.kind ≠ .chart) := by
  refine ⟨fences.map (fenceBlock options), mapM_renderFence options fences, ?_, ?_⟩
  · rw [← List.map_prod_left_eq_zip]
    exact List.forall_mem_map.2 fun f _ => kind_fenceBlock options f
  intro d
  have holds : d.Holds (pageTree (fencesTrees options fences)) := by
    have parsed := parse_fences options fences
    rwa [← html_fenceBlocks] at parsed
  rw [codeBlocks_fenceBlocks, List.forall₂_map_right_iff]
  refine (dispatch_fences (L := L) holds distinct plain).imp ?_
  intro button f copies
  refine ⟨copies.1, ?_⟩
  intro clicked reaches messages host after
  have done := copies.2 clicked reaches messages host
  change after = _ at done
  rw [done]
  exact ⟨rfl, rfl, host.writes_write ..⟩

/-- Code that looks like buttons and blocks of the page, with a chart between. -/
theorem clicks_copy_fences_lookalikes :
    let button : Text := "</code><button data-action=\"copy-code\" data-target=\"code-block-4\">"
    let code : Text := "<code id=\"code-block-3\">&lt;"
    let fences : List (FenceToken × Nat) :=
      [(⟨button, "html"⟩, 3), (⟨"{}", "echarts"⟩, 7), (⟨code, ""⟩, 4)]
    (fences.map (·.2)).Nodup ∧ (∀ f ∈ fences, f.1.content.Plain) ∧
      ∃ blocks : List Block,
        fences.mapM (fun f => renderFence (m := Id) ⟨.html, {}, none⟩ f.1 (blockId none f.2)) =
          pure blocks ∧
        let d := Document.parse (blocks.flatMap (·.html))
        List.Forall₂ (fun i content =>
            ((Registry.standard {}).dispatch d i ({} : Host Unit)).1.effects =
              [.write content, .success "Copied"])
          (d.named "button") [button, code] := by
  intro button code fences
  have distinct : (fences.map (·.2)).Nodup := by decide
  have plain : ∀ f ∈ fences, f.1.content.Plain := by decide
  obtain ⟨blocks, rendered, _, copies⟩ := clicks_copy_fences (m := Id) (L := Unit) {} distinct plain
  have contents : ((fences.zip blocks).filter fun written => written.2.kind ≠ .chart).map
      (·.1.1.content) = [button, code] := by
    have same : blocks = _ := rendered.symm
    rw [same]
    decide +kernel
  refine ⟨distinct, plain, blocks, rendered, ?_⟩
  rw [← contents, List.forall₂_map_right_iff]
  refine copies.imp fun i written clicks => ?_
  rw [(clicks.2 i .refl {} {}).2.1]
  rfl

end LivePage

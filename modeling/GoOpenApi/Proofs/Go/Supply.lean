import GoOpenApi.Proofs.Go.Advancing
import GoOpenApi.Proofs.Go.Comments
import Mathlib.Data.List.Perm.Subperm

/-!
The comments of a text as a supply from which docs are taken. What a parser takes from the supply
lies between the tokens that it reads, so that what is read one after the other takes nothing twice.
-/

open scoped List

namespace GoOpenApi.Go

namespace Token

/-- A list of members may begin behind the token. -/
def opens (t : Token) : Bool := [.symbol "\x7b", .symbol "(", .word "type"].contains t.lexeme

/-- A member may end where the comments before `t` begin: at the token `u` before `t`, or before it
if that is a semicolon. -/
def endsMember (u t : Token) : Bool :=
  !u.opens && (u.lexeme != .symbol ";" || u.comments.isEmpty && u.lastRow == t.lastRow)

/-- The comments before a token, where `u?` is the token before it. One that stands behind a member,
on its last row and with nothing in between, is left out. -/
def ownComments (u? : Option Token) (t : Token) : List Comment :=
  match u?, t.comments with
  | some u, c :: cs => if u.endsMember t && c.row == t.lastRow then cs else c :: cs
  | _, cs => cs

/-- The comments of tokens after `u?` that do not stand directly behind a member on its last
row. -/
def supply : Option Token → List Token → List Comment
  | _, [] => []
  | u?, t :: ts => ownComments u? t ++ supply (some t) ts

/-- Those that stand between the tokens. -/
def inner : List Token → List Comment
  | [] => []
  | t :: ts => supply (some t) ts

theorem supply_append (u? : Option Token) (ts us : List Token) :
    supply u? (ts ++ us) = supply u? ts ++ supply (ts.foldl (fun _ t ↦ some t) u?) us := by
  induction ts generalizing u? with
  | nil => rfl
  | cons t ts ih => rw [List.cons_append, supply, supply, ih, List.append_assoc, List.foldl_cons]

theorem inner_sublist (u? : Option Token) (ts : List Token) : inner ts <+ supply u? ts := by
  cases ts with
  | nil => exact .slnil
  | cons t ts => exact List.sublist_append_right _ _

theorem inner_append (ts us : List Token) : inner ts ++ inner us <+ inner (ts ++ us) := by
  cases ts with
  | nil => exact .refl _
  | cons t ts =>
    rw [List.cons_append, inner, inner, supply_append]
    exact (inner_sublist _ us).append_left _

end Token

open GoOpenApi.Go.Token (supply)

variable {α β : Type}

/-- Each value takes its own part of the comments. -/
inductive Each (P : α → List Comment → Prop) : List α → List Comment → Prop
  | nil : Each P [] []
  | cons {a : α} {as : List α} {cs ds : List Comment} :
    P a cs → Each P as ds → Each P (a :: as) (cs ++ ds)

namespace Each

variable {P : α → List Comment → Prop} {as bs : List α} {cs ds : List Comment}

theorem single {a : α} (h : P a cs) : Each P [a] cs := by
  have hc := Each.cons h .nil
  rwa [List.append_nil] at hc

theorem append (h : Each P as cs) (h' : Each P bs ds) : Each P (as ++ bs) (cs ++ ds) := by
  induction h with
  | nil => exact h'
  | cons ha _ ih =>
    rw [List.append_assoc]
    exact .cons ha ih

theorem map {Q : β → List Comment → Prop} {f : α → β} (h : Each P as cs)
    (hf : ∀ a cs, P a cs → Q (f a) cs) : Each Q (as.map f) cs := by
  induction h with
  | nil => exact .nil
  | cons ha _ ih => exact .cons (hf _ _ ha) ih

theorem perm (h : Each P as cs) (hp : as.Perm bs) : ∃ ds, Each P bs ds ∧ ds.Perm cs := by
  induction hp generalizing cs with
  | nil => exact ⟨cs, h, .refl _⟩
  | cons a _ ih =>
    cases h with
    | cons ha h =>
      obtain ⟨ds, hd, hp⟩ := ih h
      exact ⟨_, .cons ha hd, hp.append_left _⟩
  | swap a b as =>
    cases h with
    | cons ha h =>
      cases h with
      | cons hb h =>
        refine ⟨_, .cons hb (.cons ha h), ?_⟩
        rw [← List.append_assoc, ← List.append_assoc]
        exact List.perm_append_comm.append_right _
  | trans _ _ ih ih' =>
    obtain ⟨ds, hd, hp⟩ := ih h
    obtain ⟨es, he, hp'⟩ := ih' hd
    exact ⟨es, he, hp'.trans hp⟩

end Each

namespace Parser

variable {P : α → List Comment → Prop} {Q : β → List Comment → Prop} {acc : List Comment}
  {p q : Parser α} {line : Bool} {ts rest : List Token}

theorem lexeme_eq_some {l : Lexeme} {t : Token} (h : lexeme l line ts = some (t, rest)) :
    ts = t :: rest ∧ t.lexeme = l := by
  obtain ⟨t', rfl, ht⟩ := accept_eq_some h
  split at ht
  · cases ht
    exact ⟨rfl, ‹_›⟩
  · cases ht

/-- What a parser reads takes its docs from comments between the tokens of it, and from `acc`. -/
def Documents (P : α → List Comment → Prop) (acc : List Comment) (p : Parser α) : Prop :=
  ∀ line ts a rest, p line ts = some (a, rest) →
    ∃ used cs, ts = used ++ rest ∧ P a cs ∧ cs <+~ acc ++ Token.inner used

namespace Documents

/-- Nothing is taken. -/
theorem any [Consumes p] : Documents (fun _ cs ↦ cs = []) acc p := by
  intro line ts a rest h
  obtain ⟨used, rfl⟩ := Consumes.leaves _ _ _ _ h
  exact ⟨used, [], rfl, rfl, List.nil_subperm⟩

theorem pure {a : α} {cs : List Comment} (h : P a cs) (hc : cs <+~ acc) :
    Documents P acc (pure a) := by
  intro line ts a' rest hr
  cases hr
  refine ⟨[], cs, rfl, h, ?_⟩
  rwa [Token.inner, List.append_nil]

theorem fail : Documents P acc (fail : Parser α) := by
  intro line ts a rest h
  cases h

theorem bind {f : α → Parser β} (hp : Documents P [] p)
    (hf : ∀ a cs, P a cs → Documents Q (acc ++ cs) (f a)) : Documents Q acc (p >>= f) := by
  intro line ts b rest h
  obtain ⟨a, ts', ha, hb⟩ := bind_eq_some h
  obtain ⟨used, cs, rfl, hP, hc⟩ := hp _ _ _ _ ha
  obtain ⟨used', ds, rfl, hQ, hd⟩ := hf a cs hP _ _ _ _ hb
  refine ⟨used ++ used', ds, (List.append_assoc _ _ _).symm, hQ, hd.trans ?_⟩
  rw [List.append_assoc]
  refine List.Subperm.append (.refl _) ?_
  exact (hc.append (.refl _)).trans (Token.inner_append used used').subperm

theorem skip {f : α → Parser β} [Consumes p] (hf : ∀ a, Documents Q acc (f a)) :
    Documents Q acc (p >>= f) :=
  any.bind fun a cs hc ↦ by
    rw [hc, List.append_nil]
    exact hf a

theorem orElse (hp : Documents P acc p) (hq : Documents P acc q) : Documents P acc (p <|> q) :=
  fun _ _ _ _ h ↦ (orElse_eq_some h).elim (hp _ _ _ _) (hq _ _ _ _)

theorem ite {c : Prop} [Decidable c] (hp : Documents P acc p) (hq : Documents P acc q) :
    Documents P acc (if c then p else q) := by
  split
  · exact hp
  · exact hq

theorem within (line : Bool) (hp : Documents P acc p) : Documents P acc (within line p) :=
  fun _ _ _ _ h ↦ hp _ _ _ _ h

theorem optional (hp : Documents P [] p) :
    Documents (fun a? ↦ Each P a?.toList) [] (optional p) := by
  intro line ts a? rest h
  obtain ⟨rfl, rfl⟩ | ⟨a, rfl, hr⟩ := optional_eq_some h
  · exact ⟨[], [], rfl, .nil, List.nil_subperm⟩
  · obtain ⟨used, cs, ht, hP, hc⟩ := hp _ _ _ _ hr
    exact ⟨used, cs, ht, .single hP, hc⟩

theorem manyWithin (hp : Documents P [] p) (fuel : List Token) :
    Documents (Each P) [] (manyWithin p fuel) := by
  induction fuel with
  | nil => exact .pure .nil (.refl _)
  | cons t fuel ih =>
    refine hp.optional.bind fun a? cs ha ↦ ?_
    cases a? with
    | none => exact .pure .nil List.nil_subperm
    | some a => exact ih.bind fun as ds has ↦ .pure (ha.append has) (.refl _)

theorem many (hp : Documents P [] p) : Documents (Each P) [] (many p) :=
  fun _ ts _ _ h ↦ hp.manyWithin ts _ _ _ _ h

theorem commaList (hp : Documents P [] p) : Documents (Each P) [] (commaList p) :=
  hp.bind fun _ _ ha ↦ (Documents.many (.skip fun _ ↦ hp)).bind fun _ _ has ↦
    .pure (.cons ha has) (.refl _)

theorem looseList (hp : Documents P [] p) : Documents (Each P) [] (looseList p) := by
  refine hp.commaList.optional.bind fun as? cs has ↦ .skip fun _ ↦ ?_
  cases as? with
  | none => exact .pure .nil List.nil_subperm
  | some as =>
    cases has with
    | cons has h =>
      cases h
      refine .pure has ?_
      rw [List.append_nil, List.nil_append]

theorem between (opening closing : String) (hp : Documents P [] p) :
    Documents P [] (between opening closing p) :=
  .skip fun _ ↦ (hp.within false).bind fun _ _ ha ↦ .skip fun _ ↦ .pure ha (.refl _)

end Documents

end Parser

/-! ### Members and the comments around them -/

/-- The docs are those of comments, and what is documented takes others. -/
def WithDocs (P : α → List Comment → Prop) (m : List String × α) (cs : List Comment) : Prop :=
  ∃ own rest, m.1 = own.flatMap Comment.lines ∧ P m.2 rest ∧ cs = own ++ rest

/-- Behind other siblings, of which the nearest is first, siblings take comments: members what is
in them, and a comment itself unless it trails a member. -/
inductive Laid (P : α → List Comment → Prop) :
    List (Sibling α) → List (Sibling α) → List Comment → Prop
  | nil {before : List (Sibling α)} : Laid P before [] []
  | comment {before after : List (Sibling α)} {c : Comment} {cs : List Comment} :
    Laid P (.comment c :: before) after cs →
    Laid P before (.comment c :: after) ((if Sibling.trails c before then [] else [c]) ++ cs)
  | node {before after : List (Sibling α)} {row endRow : Nat} {a : α} {cs ds : List Comment} :
    P a cs → Laid P (.node row endRow a :: before) after ds →
    Laid P before (.node row endRow a :: after) (cs ++ ds)

/-- The comments behind the last member that can still become docs. -/
def pending : List (Sibling α) → List Comment
  | .comment c :: before => pending before ++ if Sibling.trails c before then [] else [c]
  | _ => []

theorem docComments_sublist (row : Nat) (before : List (Sibling α)) :
    docComments row before <+ pending before := by
  induction before generalizing row with
  | nil => exact .slnil
  | cons s before ih =>
    cases s with
    | node => exact .slnil
    | comment c =>
      rw [docComments, pending]
      split
      · exact List.nil_sublist _
      · rename_i h
        have ht : Sibling.trails c before = false := by simp_all
        rw [ht]
        exact (ih _).append (.refl _)

namespace Laid

variable {P : α → List Comment → Prop} {before as bs : List (Sibling α)} {cs ds : List Comment}

theorem append (h : Laid P before as cs) (h' : Laid P (as.reverse ++ before) bs ds) :
    Laid P before (as ++ bs) (cs ++ ds) := by
  induction h with
  | nil => exact h'
  | comment _ ih =>
    rw [List.append_assoc]
    exact .comment (ih (by simpa using h'))
  | node ha _ ih =>
    rw [List.append_assoc]
    exact .node ha (ih (by simpa using h'))

/-- No comment is taken by two members, and none that trails a member by any. -/
theorem each (h : Laid P before as cs) :
    ∃ ds, Each (WithDocs P) (membersFrom before as) ds ∧ ds <+ pending before ++ cs := by
  induction h with
  | nil => exact ⟨[], .nil, List.nil_sublist _⟩
  | comment _ ih =>
    obtain ⟨ds, he, hs⟩ := ih
    rw [pending, List.append_assoc] at hs
    exact ⟨ds, he, hs⟩
  | @node before after row endRow a cs ds ha _ ih =>
    obtain ⟨es, he, hs⟩ := ih
    refine ⟨_, .cons ⟨docComments row before, cs, docsAbove_eq row before, ha, rfl⟩ he, ?_⟩
    rw [List.append_assoc]
    exact (docComments_sublist row before).append ((List.Sublist.refl cs).append hs)

end Laid

/-- What a run of comments makes take: all of them but a first one that trails a member. -/
def leading (before : List (Sibling α)) : List Comment → List Comment
  | [] => []
  | c :: cs => (if Sibling.trails c before then [] else [c]) ++ cs

theorem laid_run (P : α → List Comment → Prop) (c : Comment) (before : List (Sibling α))
    (cs : List Comment) : Laid P (.comment c :: before) (cs.map .comment) cs := by
  induction cs generalizing c before with
  | nil => exact .nil
  | cons d cs ih => exact .comment (ih d _)

theorem laid_comments (P : α → List Comment → Prop) (before : List (Sibling α))
    (cs : List Comment) : Laid P before (cs.map .comment) (leading before cs) := by
  cases cs with
  | nil => exact .nil
  | cons c cs => exact .comment (laid_run P c before cs)

/-- Where the next token may have a comment that trails a member, the last sibling is that
member. -/
def Behind (u? : Option Token) (before : List (Sibling α)) (ts : List Token) : Prop :=
  ∀ u ∈ u?, ∀ t ∈ ts.head?, u.endsMember t →
    ∃ row value above, before = .node row t.lastRow value :: above

/-- The last sibling is a member that ends right before the next token. -/
def Ended (before : List (Sibling α)) (ts : List Token) : Prop :=
  ∀ t ∈ ts.head?, ∃ row value above, before = .node row t.lastRow value :: above

section

variable {before : List (Sibling α)} {u? : Option Token} {t : Token} {ts : List Token}

theorem Ended.behind (h : Ended before ts) : Behind u? before ts := fun _ _ t ht _ ↦ h t ht

theorem Behind.leading_sublist (h : Behind u? before (t :: ts)) :
    leading before t.comments <+ Token.ownComments u? t := by
  have hall : leading before t.comments <+ t.comments := by
    cases t.comments with
    | nil => exact .slnil
    | cons c cs =>
      rw [leading]
      split
      · exact List.sublist_cons_self c cs
      · exact .refl _
  cases u? with
  | none => exact hall
  | some u =>
    unfold Token.ownComments
    cases hc : t.comments with
    | nil => exact .slnil
    | cons c cs =>
      rw [hc] at hall
      dsimp only
      split
      · rename_i hcond
        rw [Bool.and_eq_true, beq_iff_eq] at hcond
        obtain ⟨row, value, above, rfl⟩ := h u rfl t rfl hcond.1
        rw [leading, Sibling.trails, if_pos (by simp [hcond.2])]
        exact .refl _
      · exact hall

/-- No member stands behind the token that opens a list. -/
theorem behind_opening {u : Token} (h : u.opens) : Behind (some u) ([] : List (Sibling α)) ts := by
  intro u' hu t _ he
  cases hu
  simp [Token.endsMember, h] at he

/-- A semicolon ends a member, and its comments stand behind the member. -/
theorem Ended.behind_semicolon (h : Ended before (t :: ts)) (ht : t.lexeme = .symbol ";") :
    Behind (some t) ((t.comments.map .comment).reverse ++ before) ts := by
  intro u hu t' _ he
  cases hu
  obtain ⟨row, value, above, rfl⟩ := h t rfl
  unfold Token.endsMember at he
  simp only [ht, bne_self_eq_false, Bool.false_or, Bool.and_eq_true, List.isEmpty_iff,
    beq_iff_eq] at he
  rw [he.2.1, he.2.2]
  exact ⟨row, value, above, rfl⟩

end

namespace Parser

variable {P : α → List Comment → Prop} {p : Parser α} {q : Parser (List (Sibling α))}

/-- The siblings that a parser reads take their comments from before and between its tokens, as
far as these do not trail a member. -/
def Lays (P : α → List Comment → Prop) (q : Parser (List (Sibling α))) : Prop :=
  ∀ line ts siblings rest u? before, q line ts = some (siblings, rest) → Behind u? before ts →
    ∃ used cs, ts = used ++ rest ∧ Laid P before siblings cs ∧ cs <+~ supply u? used

/-- The same for what a parser adds to the siblings of a member that has just been read. -/
def LaysAfter (P : α → List Comment → Prop) (member : List (Sibling α))
    (q : Parser (List (Sibling α))) : Prop :=
  ∀ line ts siblings rest u? before, q line ts = some (siblings, rest) →
    Ended (member.reverse ++ before) ts →
    ∃ used more cs, ts = used ++ rest ∧ siblings = member ++ more ∧
      Laid P (member.reverse ++ before) more cs ∧ cs <+~ supply u? used

/-- A member takes the comments before it and those in it. -/
theorem sibling_laid [Advances p] (hp : Documents P [] p) {line : Bool} {ts rest : List Token}
    {member : List (Sibling α)} {u? : Option Token} {before : List (Sibling α)}
    (h : sibling p line ts = some (member, rest)) (hb : Behind u? before ts) :
    ∃ used cs, ts = used ++ rest ∧ Laid P before member cs ∧ cs <+~ supply u? used ∧
      Ended (member.reverse ++ before) rest := by
  obtain ⟨first, ts₁, hfirst, h⟩ := bind_eq_some h
  obtain ⟨a, ts₂, ha, h⟩ := bind_eq_some h
  obtain ⟨next, ts₃, hnext, h⟩ := bind_eq_some h
  cases h
  cases ts with
  | nil => cases hfirst
  | cons t ts =>
    cases hfirst
    obtain ⟨used, cs, hused, hP, hcs⟩ := hp _ _ _ _ ha
    cases used with
    | nil => exact absurd hused.symm (Advances.ne _ _ _ _ ha)
    | cons t' used =>
      obtain ⟨rfl, rfl⟩ := List.cons.inj hused
      cases ts₂ with
      | nil => cases hnext
      | cons next ts₂ =>
        cases hnext
        refine ⟨first :: used, leading before first.comments ++ (cs ++ []), rfl,
          (laid_comments P before first.comments).append (.node hP .nil), ?_, ?_⟩
        · rw [List.append_nil]
          exact hb.leading_sublist.subperm.append hcs
        · intro t' ht'
          cases ht'
          exact ⟨first.row, a, (first.comments.map .comment).reverse ++ before, by simp⟩

theorem Lays.fail : Lays P fail := by
  intro line ts siblings rest u? before h
  cases h

theorem Lays.nil : Lays P (pure []) := by
  intro line ts siblings rest u? before h _
  cases h
  exact ⟨[], [], rfl, .nil, List.nil_subperm⟩

theorem Lays.peek {f : Token → Parser (List (Sibling α))} (hf : ∀ t, Lays P (f t)) :
    Lays P (peek >>= f) := by
  intro line ts siblings rest u? before h hb
  obtain ⟨t, ts', ht, h⟩ := bind_eq_some h
  cases ts with
  | nil => cases ht
  | cons t' ts =>
    cases ht
    exact hf _ _ _ _ _ _ _ h hb

theorem Lays.sibling [Advances p] (hp : Documents P [] p)
    {f : List (Sibling α) → Parser (List (Sibling α))}
    (hf : ∀ member, LaysAfter P member (f member)) : Lays P (sibling p >>= f) := by
  intro line ts siblings rest u? before h hb
  obtain ⟨member, ts', hm, hrest⟩ := bind_eq_some h
  obtain ⟨used, cs, rfl, hl, hc, he⟩ := sibling_laid hp hm hb
  obtain ⟨used', more, ds, rfl, rfl, hl', hd⟩ :=
    hf member _ _ _ _ (used.foldl (fun _ t ↦ some t) u?) before hrest he
  refine ⟨used ++ used', cs ++ ds, (List.append_assoc _ _ _).symm, hl.append hl', ?_⟩
  rw [Token.supply_append]
  exact hc.append hd

theorem LaysAfter.pure {member : List (Sibling α)} : LaysAfter P member (pure member) := by
  intro line ts siblings rest u? before h _
  cases h
  exact ⟨[], [], [], rfl, (List.append_nil _).symm, .nil, List.nil_subperm⟩

theorem LaysAfter.fail {member : List (Sibling α)} : LaysAfter P member fail := by
  intro line ts siblings rest u? before h
  cases h

theorem LaysAfter.peek {member : List (Sibling α)} {f : Token → Parser (List (Sibling α))}
    (hf : ∀ t, LaysAfter P member (f t)) : LaysAfter P member (peek >>= f) := by
  intro line ts siblings rest u? before h hb
  obtain ⟨t, ts', ht, h⟩ := bind_eq_some h
  cases ts with
  | nil => cases ht
  | cons t' ts =>
    cases ht
    exact hf _ _ _ _ _ _ _ h hb

/-- The end of a member, and the members after it. -/
theorem LaysAfter.terminator {member : List (Sibling α)} (hq : Lays P q) :
    LaysAfter P member (terminator >>= fun comments ↦ q >>= fun more ↦
      Pure.pure (member ++ comments.map .comment ++ more)) := by
  intro line ts siblings rest u? before h he
  obtain ⟨comments, ts', ht, h⟩ := bind_eq_some h
  obtain ⟨more, ts'', hm, h⟩ := bind_eq_some h
  cases h
  unfold Parser.terminator at ht
  split at ht
  · rename_i t ts
    split at ht
    · rename_i hl
      cases ht
      obtain ⟨used, cs, rfl, hlaid, hc⟩ := hq _ _ _ _ _ _ hm (he.behind_semicolon hl)
      refine ⟨t :: used, t.comments.map .comment ++ more, _, rfl, List.append_assoc _ _ _,
        (laid_comments P _ _).append hlaid, ?_⟩
      have hb : Behind u? (member.reverse ++ before) (t :: _) := he.behind
      exact hb.leading_sublist.subperm.append hc
    · split at ht
      · cases ht
        obtain ⟨used, cs, hu, hlaid, hc⟩ := hq _ _ _ _ u? _ hm he.behind
        exact ⟨used, more, cs, hu, by simp, hlaid, hc⟩
      · cases ht
  · cases ht

theorem Lays.membersWithin [Advances p] (hp : Documents P [] p) (closing : String) (ended : Bool)
    (fuel : List Token) : Lays P (membersWithin closing ended p fuel) := by
  induction fuel with
  | nil => exact .fail
  | cons t fuel ih =>
    refine .peek fun next ↦ ?_
    split
    · exact .nil
    · refine .sibling hp fun member ↦ .peek fun next ↦ ?_
      split
      · exact .pure
      · exact .terminator ih

/-- The docs of members in brackets are taken from what stands between the brackets. -/
theorem Documents.members [Advances p] (hp : Documents P [] p) {opening : String}
    (ho : opening = "\x7b" ∨ opening = "(") (closing : String) (ended : Bool) :
    Documents (fun siblings ↦ Each (WithDocs P) (documented siblings)) []
      (members opening closing ended p) := by
  intro line ts siblings rest h
  obtain ⟨_, ts₁, ho', h₁⟩ := bind_eq_some h
  obtain ⟨siblings', ts₂, hs, h₂⟩ := bind_eq_some h₁
  obtain ⟨_, ts₃, hclose, h₃⟩ := bind_eq_some h₂
  cases h₃
  obtain ⟨t, _, ht, hr⟩ := bind_eq_some ho'
  cases hr
  obtain ⟨rfl, hlexeme⟩ := lexeme_eq_some ht
  have hopens : t.opens = true := by
    unfold Token.opens
    rcases ho with rfl | rfl <;> simp [hlexeme]
  obtain ⟨used, cs, rfl, hlaid, hc⟩ :=
    Lays.membersWithin hp closing ended ts₁ true ts₁ _ _ (some t) [] hs (behind_opening hopens)
  obtain ⟨used', rfl⟩ := Consumes.leaves _ _ _ _ hclose
  obtain ⟨ds, he, hd⟩ := hlaid.each
  have hd : ds <+ cs := hd
  refine ⟨t :: (used ++ used'), ds, by simp, he, hd.subperm.trans (hc.trans ?_)⟩
  rw [List.nil_append, Token.inner, Token.supply_append]
  exact (List.sublist_append_left _ _).subperm

end Parser

end GoOpenApi.Go

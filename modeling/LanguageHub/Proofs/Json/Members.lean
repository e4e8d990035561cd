import LanguageHub.Proofs.Dictionary
import LanguageHub.Proofs.Json.Readers
import LanguageHub.Proofs.Json.RoundTrip

/-!
# The members of an object

The members of an object as they stand in a text, each with the text from its value on, whatever
the values are. A record that is read from an object with distinct names takes the values of its
fields from these texts, one after another. The text of an object that was written has the
members of the object, each with the text of its value (`memberTexts_render`).
-/

namespace LanguageHub.Json

variable {cs rest : List Char}

/-- A member of an object: its name, and the text from its value on. -/
abbrev MemberText := String × List Char

/-- Pass over the colon and the value of a member, and keep it in front of those before it. -/
def passMember (name : String) (members : List MemberText) : Reader (List MemberText) := fun cs ↦ do
  let text ← readColon cs
  let (_, rest) ← skipValue text
  return ((name, text) :: members, rest)

/-- The members of the object that stands here. -/
def passObject : Reader (List MemberText) := fun cs ↦
  match skipSpace cs with
  | '\x7b' :: inner =>
    (readMembers passMember (inner.length + 1) true [] inner).map fun (members, r) ↦
      (members.reverse, r)
  | _ => failSyntax .expectedValue

/-- The members of the object that a text is, in order. -/
def memberTexts (text : String) : Except Fault (List MemberText) := readWhole passObject text

namespace TextRecord

variable {σ : Type}

/-- Take the value of a member into a partly read record, if it is a field of the record. -/
def takeText (r : TextRecord σ) (s : σ) (m : MemberText) : Except Fault σ :=
  if r.fields.any (·.1 == m.1) then (r.take m.1 s m.2).map (·.1) else .ok s

/-- Take the values of members into a partly read record, one after another. -/
def takeTexts (r : TextRecord σ) (s : σ) (members : List MemberText) : Except Fault σ :=
  members.foldlM r.takeText s

/-- A field that is read is taken. -/
theorem takeText_of_take {r : TextRecord σ} {name : String} {s t : σ} {text : List Char}
    (known : r.fields.any (·.1 == name) = true) (taken : r.take name s text = .ok (t, rest)) :
    r.takeText s (name, text) = .ok t := by
  rw [takeText, if_pos known, taken]
  rfl

theorem takeTexts_cons (r : TextRecord σ) (s : σ) (m : MemberText) (members : List MemberText) :
    r.takeTexts s (m :: members) = r.takeText s m >>= fun t ↦ r.takeTexts t members :=
  List.foldlM_cons

/-- After a member that is taken come the others. -/
theorem takeTexts_of_takeText {r : TextRecord σ} {s t : σ} {m : MemberText}
    (taken : r.takeText s m = .ok t) (members : List MemberText) :
    r.takeTexts s (m :: members) = r.takeTexts t members := by
  rw [takeTexts_cons, taken]
  rfl

/-- A record takes what a member holds that it has not seen before, and it leaves what the passing
over leaves. -/
theorem readMember_eq (r : TextRecord σ) (passing : r.PassingFields) {name : String}
    {seen : List String} {text : List Char} {u : Unit} (unseen : name ∉ seen)
    (colon : readColon cs = .ok text) (skip : skipValue text = .ok (u, rest)) (s : σ) :
    ∃ seen', (∀ n ∈ seen', n = name ∨ n ∈ seen) ∧ r.readMember name (seen, s) cs =
      (r.takeText s (name, text)).map fun t ↦ ((seen', t), rest) := by
  by_cases hknown : r.fields.any (·.1 == name)
  · have hne : seen.contains name = false := by simpa using unseen
    refine ⟨name :: seen, fun n hn ↦ List.mem_cons.mp hn, ?_⟩
    simp only [readMember, takeText, hknown, if_true, hne, Bool.false_eq_true, if_false, colon]
    cases htake : r.take name s text with
    | error f => simp [htake, bind, Except.bind, Except.map]
    | ok result =>
      have hpasses := (passing name s htake).skipValue
      rw [skip] at hpasses
      cases hpasses
      simp [htake, bind, Except.bind, Except.map, pure, Except.pure]
  · refine ⟨seen, fun n hn ↦ .inr hn, ?_⟩
    simp only [readMember, takeText, hknown, Bool.false_eq_true, if_false, colon]
    simp [skip, bind, Except.bind, Except.map, pure, Except.pure]

/-- A record takes what its members hold, one after another, and it leaves what the passing over
leaves. -/
theorem readMembers_eq (r : TextRecord σ) (passing : r.PassingFields) {steps : Nat}
    {isFirst : Bool} {before after : List MemberText}
    (h : readMembers passMember steps isFirst before cs = .ok (after, rest)) :
    ∃ members, after = members.reverse ++ before ∧ ∀ seen s,
      (members.map (·.1)).Nodup → (∀ name ∈ members.map (·.1), name ∉ seen) →
      ∃ seen', readMembers r.readMember steps isFirst (seen, s) cs =
        (r.takeTexts s members).map fun t ↦ ((seen', t), rest) := by
  induction steps generalizing isFirst before cs with
  | zero => cases h
  | succ steps ih =>
    rw [readMembers] at h
    obtain ⟨⟨more, here⟩, hnext, h⟩ := eq_ok_of_bind h
    cases more with
    | false =>
      cases h
      refine ⟨[], rfl, fun seen s _ _ ↦ ⟨seen, ?_⟩⟩
      rw [readMembers, hnext]
      rfl
    | true =>
      obtain ⟨⟨name, behind⟩, hname, h⟩ := eq_ok_of_bind h
      obtain ⟨⟨_, mid⟩, hmember, h⟩ := eq_ok_of_bind h
      obtain ⟨text, hcolon, hmember⟩ := eq_ok_of_bind hmember
      obtain ⟨⟨_, left⟩, hskip, hmember⟩ := eq_ok_of_bind hmember
      cases hmember
      obtain ⟨members, hafter, hread⟩ := ih h
      refine ⟨(name, text) :: members, by rw [hafter]; simp, fun seen s nodup unseen ↦ ?_⟩
      rw [List.map_cons, List.nodup_cons] at nodup
      obtain ⟨seen₁, hseen₁, hfirst⟩ :=
        r.readMember_eq passing (unseen name List.mem_cons_self) hcolon hskip s
      have step : readMembers r.readMember (steps + 1) isFirst (seen, s) cs =
          r.readMember name (seen, s) behind >>= fun x ↦
            readMembers r.readMember steps false x.1 x.2 := by
        rw [readMembers, hnext]
        change (scanString here >>= _) = _
        rw [hname]
        rfl
      rw [step, takeTexts_cons, hfirst]
      cases r.takeText s (name, text) with
      | error f => exact ⟨[], rfl⟩
      | ok t =>
        refine hread seen₁ t nodup.2 fun n hn hmem ↦ ?_
        rcases hseen₁ n hmem with rfl | hmem
        · exact nodup.1 hn
        · exact unseen n (List.mem_cons_of_mem _ hn) hmem

/-- No member stands behind another one that is a field of the record under the same name. -/
def Once (r : TextRecord σ) (members : List MemberText) : Prop :=
  members.Pairwise fun m m' ↦ r.fields.any (·.1 == m.1) = true → m'.1 ≠ m.1

/-- A member that a record takes is passed over too, and was not seen before if it is a field. -/
theorem passMember_of_readMember (r : TextRecord σ) (passing : r.PassingFields) {name : String}
    {seen seen' : List String} {s t : σ}
    (h : r.readMember name (seen, s) cs = .ok ((seen', t), rest)) :
    ∃ text, (∀ before, passMember name before cs = .ok ((name, text) :: before, rest)) ∧
      r.takeText s (name, text) = .ok t ∧
      (r.fields.any (·.1 == name) = true → name ∉ seen ∧ name ∈ seen') ∧ seen ⊆ seen' := by
  obtain ⟨text, colon, passes⟩ := r.passingMember passing h
  have pass (before : List MemberText) :
      passMember name before cs = .ok ((name, text) :: before, rest) := by
    rw [passMember, colon]
    change (skipValue text >>= fun p ↦ Except.ok ((name, text) :: before, p.2)) = _
    rw [passes.skipValue]
    rfl
  refine ⟨text, pass, ?_⟩
  simp only [readMember] at h
  split at h
  · next known =>
    split at h
    · cases h
    · next unseen =>
      obtain ⟨text', colon', h⟩ := eq_ok_of_bind h
      rw [colon] at colon'
      cases colon'
      obtain ⟨⟨t', after⟩, taken, h⟩ := eq_ok_of_bind h
      cases h
      exact ⟨takeText_of_take known taken, fun _ ↦ ⟨by simpa using unseen, List.mem_cons_self⟩,
        List.subset_cons_self _ _⟩
  · next unknown =>
    obtain ⟨_, -, h⟩ := eq_ok_of_bind h
    obtain ⟨_, -, h⟩ := eq_ok_of_bind h
    cases h
    rw [takeText, if_neg unknown]
    exact ⟨rfl, fun known ↦ absurd known unknown, List.Subset.refl _⟩

/-- What a record takes from an object are the members that are passed over, and no field is taken
twice. -/
theorem takeTexts_of_readMembers (r : TextRecord σ) (passing : r.PassingFields) {steps : Nat}
    {isFirst : Bool} {seen seen' : List String} {s t : σ}
    (h : readMembers r.readMember steps isFirst (seen, s) cs = .ok ((seen', t), rest)) :
    ∃ members, (∀ before, readMembers passMember steps isFirst before cs =
        .ok (members.reverse ++ before, rest)) ∧
      r.takeTexts s members = .ok t ∧ r.Once members ∧
      ∀ m ∈ members, r.fields.any (·.1 == m.1) = true → m.1 ∉ seen := by
  induction steps generalizing isFirst seen s cs with
  | zero => cases h
  | succ steps ih =>
    rw [readMembers] at h
    obtain ⟨⟨more, here⟩, next, h⟩ := eq_ok_of_bind h
    cases more with
    | false =>
      cases h
      refine ⟨[], fun before ↦ ?_, rfl, .nil, fun _ mem ↦ absurd mem List.not_mem_nil⟩
      rw [readMembers, next]
      rfl
    | true =>
      obtain ⟨⟨name, behind⟩, named, h⟩ := eq_ok_of_bind h
      obtain ⟨⟨⟨seen₁, s₁⟩, mid⟩, member, h⟩ := eq_ok_of_bind h
      obtain ⟨text, pass, taken, fresh, subset⟩ := r.passMember_of_readMember passing member
      obtain ⟨members, passed, takenRest, once, unseen⟩ := ih h
      refine ⟨(name, text) :: members, fun before ↦ ?_, ?_, .cons ?_ once, ?_⟩
      · rw [readMembers, next]
        change (scanString here >>= fun p ↦ passMember p.1 before p.2 >>= fun q ↦
          readMembers passMember steps false q.1 q.2) = _
        rw [named]
        change (passMember name before behind >>= fun q ↦
          readMembers passMember steps false q.1 q.2) = _
        rw [pass]
        change readMembers passMember steps false _ mid = _
        rw [passed]
        simp
      · rw [takeTexts_of_takeText taken, takenRest]
      · rintro m mem known same
        exact unseen m mem (same ▸ known) (same ▸ (fresh known).2)
      · rw [List.forall_mem_cons]
        exact ⟨fun known ↦ (fresh known).1, fun m mem known was ↦ unseen m mem known (subset was)⟩

/-- A record that is read from the whole of a text takes members of an object, no field twice, or
elements of an array. -/
theorem cases_of_readWhole {α : Type} (r : TextRecord σ) (passing : r.PassingFields) {text : String}
    {start : σ} {finish : σ → Except Mismatch α} {a : α}
    (h : readWhole (r.read start finish) text = .ok a) : ∃ t, finish t = .ok a ∧
      ((∃ members, memberTexts text = .ok members ∧ r.takeTexts start members = .ok t ∧
          r.Once members) ∨
        ∃ inner rest, skipSpace text.toList = '[' :: inner ∧
          r.readElements 0 r.fields start inner = .ok (t, rest)) := by
  obtain ⟨⟨a, rest⟩, read, h⟩ := eq_ok_of_bind h
  obtain ⟨_, end_, h⟩ := eq_ok_of_bind h
  cases h
  simp only [TextRecord.read] at read
  split at read
  · cases read
  next c inner space =>
  split at read
  · next brace =>
    subst brace
    obtain ⟨⟨⟨seen, t⟩, after⟩, object, read⟩ := eq_ok_of_bind read
    obtain ⟨done, rfl⟩ := eq_of_finished read
    obtain ⟨members, passed, taken, once, -⟩ := r.takeTexts_of_readMembers passing object
    refine ⟨t, done, .inl ⟨members, ?_, taken, once⟩⟩
    rw [memberTexts, readWhole, passObject, space]
    change ((readMembers passMember (inner.length + 1) true [] inner).map (fun p ↦
      (p.1.reverse, p.2)) >>= fun p ↦ readEnd p.2 >>= fun _ ↦ Except.ok p.1) = _
    rw [passed]
    change (readEnd after >>= fun _ ↦ Except.ok _) = _
    rw [end_, List.append_nil]
    exact congrArg Except.ok (List.reverse_reverse members)
  split at read
  · next bracket =>
    subst bracket
    obtain ⟨⟨t, after⟩, elements, read⟩ := eq_ok_of_bind read
    obtain ⟨done, rfl⟩ := eq_of_finished read
    exact ⟨t, done, .inr ⟨inner, after, space, elements⟩⟩
  · exact absurd read (wrongKindHere_ne_ok _ _ _)

/-- A record that is read from the whole of a text with distinct names takes what the members
hold. -/
theorem readWhole_read {α : Type} (r : TextRecord σ) (passing : r.PassingFields) {text : String}
    {members : List MemberText} (object : memberTexts text = .ok members)
    (distinct : (members.map (·.1)).Nodup) (start : σ) (finish : σ → Except Mismatch α) :
    readWhole (r.read start finish) text =
      r.takeTexts start members >>= fun s ↦ (finish s).mapError .mismatch := by
  obtain ⟨⟨_, rest⟩, hobject, h⟩ := eq_ok_of_bind object
  obtain ⟨_, hend, h⟩ := eq_ok_of_bind h
  cases h
  simp only [passObject] at hobject
  split at hobject
  · next inner hs =>
    obtain ⟨⟨reversed, _⟩, hmembers, hrest⟩ := eq_ok_of_map hobject
    cases hrest
    obtain ⟨members, hafter, hread⟩ := r.readMembers_eq passing hmembers
    rw [List.append_nil] at hafter
    subst hafter
    rw [List.reverse_reverse] at distinct ⊢
    obtain ⟨seen, hread⟩ := hread [] start distinct (by simp)
    simp only [readWhole, read, hs, if_true, hread]
    cases htake : r.takeTexts start members with
    | error f => rfl
    | ok s =>
      simp only [Except.map, bind, Except.bind]
      cases finish s with
      | error m => rfl
      | ok a =>
        simp only [hend]
        rfl
  · cases hobject

end TextRecord

/-! ### Objects that were written -/

variable {members : List (String × Json)}

/-- The text begins with the text of the value, and what stands behind it does not go on with a
number. -/
def BeginsWith (v : Json) (text : List Char) : Prop :=
  ∃ rest, Stops rest ∧ text = v.renderList ++ rest

/-- A member was written: its name, and its value at the beginning of the text. -/
def Written (m : String × Json) (t : MemberText) : Prop := m.1 = t.1 ∧ BeginsWith m.2 t.2

/-- A value that is read back is passed over. -/
theorem ReadsBack.keeps_passMember {depth : Nat} {m : String × Json} (back : m.2.ReadsBack depth) :
    Keeps passMember Written m := by
  intro before rest stops
  have skip := (passing_readValue depth (back.reads rest stops)).skipValue
  refine ⟨(m.1, m.2.renderList ++ rest), ⟨rfl, rest, stops, rfl⟩, ?_⟩
  rw [passMember, readColon_cons]
  change (skipValue (m.2.renderList ++ rest) >>= fun p ↦
    Except.ok ((m.1, m.2.renderList ++ rest) :: before, p.2)) = _
  rw [skip]
  rfl

/-- The text of an object has the members of the object, under the same names. -/
theorem memberTexts_render {depth : Nat} (all : ∀ m ∈ members, m.2.ReadsBack depth) :
    ∃ texts, memberTexts (Json.object members).render = .ok texts ∧
      List.Forall₂ Written members texts ∧ texts.map (·.1) = members.map (·.1) := by
  obtain ⟨cs, texts, htext, written, hread⟩ :=
    readMembers_renderList (fun m h ↦ (all m h).keeps_passMember) []
  rw [List.append_nil] at htext
  have hspace : skipSpace ('\x7b' :: cs) = '\x7b' :: cs := rfl
  refine ⟨texts, ?_, written, (Dictionary.keys_of_forall₂ (R := BeginsWith) written).symm⟩
  rw [memberTexts, readWhole, render, String.toList_ofList, htext]
  change (passObject ('\x7b' :: cs) >>= fun p ↦ readEnd p.2 >>= fun _ ↦ Except.ok p.1) = _
  rw [passObject, hspace]
  change ((readMembers passMember (cs.length + 1) true [] cs).map (fun p ↦
    (p.1.reverse, p.2)) >>= fun p ↦ readEnd p.2 >>= fun _ ↦ Except.ok p.1) = _
  rw [hread]
  change (readEnd [] >>= fun _ ↦ Except.ok texts.reverse.reverse) = _
  rw [List.reverse_reverse]
  rfl

/-- A text that was written is read as a text. -/
theorem readNullable_renderText (s : String) (rest : List Char) :
    readNullable readString ((Json.text s).renderList ++ rest) = .ok (some s, rest) := by
  have htext : (Json.text s).renderList ++ rest =
      '"' :: (s.toList.flatMap escapeChar ++ '"' :: rest) := by
    simp [renderList, renderText]
  have hspace (cs : List Char) : skipSpace ('"' :: cs) = '"' :: cs := rfl
  rw [htext, readNullable, hspace]
  change (readString ('"' :: _)).map _ = _
  rw [readString, hspace]
  change (scanString _).map _ = _
  rw [scanString_escaped]
  rfl

end LanguageHub.Json

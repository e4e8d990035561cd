import LanguageHub.Proofs.Json.Tokens

/-!
# What can be read can be passed over

A value that is read ends where it would end if nobody asked for it. So the members of a record
stand at the same places, whether they are read or not. The converse fails, since a value that is
passed over may be nested to any depth.

The passing over works on all open containers at once. What is shown of a value here is therefore
that inside any containers it is passed over in a number of steps of its own, behind which the
passing over goes on in these containers.
-/

namespace LanguageHub.Json

variable {cs rest here : List Char}

/-! ### Steps of the passing over -/

/-- Go on inside the containers that remain open. -/
def goOn (steps : Nat) : List Container × List Char → Except Fault (Unit × List Char)
  | ([], after) => .ok ((), after)
  | (.list :: outer, after) => skipFrom steps (.list :: outer) after
  | (.object :: outer, after) => do skipFrom steps (.object :: outer) (← skipName after)

/-- Go on inside containers, behind a value or behind the bracket that opens the innermost. -/
def goOnBehind (steps : Nat) (justOpened : Bool) (containers : List Container) (cs : List Char) :
    Except Fault (Unit × List Char) := do
  goOn steps (← skipClosings (containers.length + 1) justOpened containers cs)

theorem skipFrom_succ (steps : Nat) (containers : List Container) (cs : List Char) :
    skipFrom (steps + 1) containers cs = (skipOpening cs >>= fun (opened, rest) ↦
      goOnBehind steps opened.isSome (opened.toList ++ containers) rest) := by
  rw [skipFrom]
  refine bind_congr fun ⟨opened, rest⟩ ↦ ?_
  refine bind_congr fun ⟨left, after⟩ ↦ ?_
  match left with
  | [] => rfl
  | .list :: outer => rfl
  | .object :: outer => rfl

theorem goOnBehind_of_skipClosings {steps : Nat} {justOpened : Bool}
    {containers : List Container} (left : List Container) (after : List Char)
    (h : skipClosings (containers.length + 1) justOpened containers cs = .ok (left, after)) :
    goOnBehind steps justOpened containers cs = goOn steps (left, after) := by
  rw [goOnBehind, h]
  rfl

theorem skipOpening_skipSpace (cs : List Char) : skipOpening (skipSpace cs) = skipOpening cs := by
  simp only [skipOpening, skipSpace_skipSpace]

theorem skipFrom_skipSpace (steps : Nat) (containers : List Container) (cs : List Char) :
    skipFrom steps containers (skipSpace cs) = skipFrom steps containers cs := by
  cases steps with
  | zero => rfl
  | succ steps => rw [skipFrom_succ, skipFrom_succ, skipOpening_skipSpace]

private theorem length_of_scanName_map {name : List Char} {opened : Option Container}
    (h : (scanName name cs).map (fun (_, r) ↦ ((none : Option Container), r)) =
      .ok (opened, rest)) : rest.length ≤ cs.length := by
  obtain ⟨_, hname, hr⟩ := eq_ok_of_map h
  cases hr
  exact length_of_scanName hname

theorem length_of_skipOpening {opened : Option Container}
    (h : skipOpening cs = .ok (opened, rest)) : rest.length < cs.length := by
  simp only [skipOpening] at h
  split at h
  · cases h
  · next c more hs =>
    have hmore := length_of_skipSpace_eq hs
    split at h
    · exact Nat.lt_of_le_of_lt (length_of_scanName_map h) hmore
    split at h
    · exact Nat.lt_of_le_of_lt (length_of_scanName_map h) hmore
    split at h
    · exact Nat.lt_of_le_of_lt (length_of_scanName_map h) hmore
    split at h
    · obtain ⟨_, hnumber, hr⟩ := eq_ok_of_map h
      cases hr
      exact Nat.lt_trans (length_of_skipNumber hnumber) hmore
    split at h
    · obtain ⟨_, hnumber, hr⟩ := eq_ok_of_map h
      cases hr
      have hlength := length_of_skipNumber hnumber
      rw [List.length_cons] at hlength
      omega
    split at h
    · obtain ⟨_, hstring, hr⟩ := eq_ok_of_map h
      cases hr
      exact Nat.lt_trans (length_of_skipStringFrom hstring) hmore
    split at h
    · cases h
      exact hmore
    split at h
    · cases h
      exact hmore
    · cases h

/-! ### A value inside containers -/

/-- A value stands at the front of `cs`, and `rest` stands behind it: inside any containers it is
passed over in the same number of steps. -/
def Passes (cs rest : List Char) : Prop :=
  ∃ k, 0 < k ∧ rest.length + k ≤ cs.length ∧ ∀ steps containers,
    skipFrom (steps + k) containers cs = goOnBehind steps false containers rest

/-- What stands in `cs` closes a container, and `rest` stands behind it. The container was just
opened, or a value of it stands in front of `cs`. -/
def Closes (container : Container) (justOpened : Bool) (cs rest : List Char) : Prop :=
  ∃ k, rest.length + k ≤ cs.length ∧ ∀ steps containers,
    goOnBehind (steps + k) justOpened (container :: containers) cs =
      goOnBehind steps false containers rest

/-- A value that stands alone is passed over. -/
theorem Passes.skipValue (passes : Passes cs rest) : skipValue cs = .ok ((), rest) := by
  obtain ⟨k, _, hle, hk⟩ := passes
  obtain ⟨steps, hsteps⟩ : ∃ steps, cs.length + 1 = steps + k :=
    ⟨cs.length + 1 - k, by omega⟩
  rw [Json.skipValue, hsteps, hk]
  rfl

theorem Passes.length_lt (passes : Passes cs rest) : rest.length < cs.length := by
  obtain ⟨k, hpos, hle, _⟩ := passes
  omega

/-- White space in front of a value makes no difference. -/
theorem Passes.of_skipSpace (passes : Passes (skipSpace cs) rest) : Passes cs rest := by
  obtain ⟨k, hpos, hle, hk⟩ := passes
  have hspace := length_skipSpace_le cs
  refine ⟨k, hpos, by omega, fun steps containers ↦ ?_⟩
  rw [← skipFrom_skipSpace, hk]

/-- A scalar is passed over in one step. -/
theorem passes_of_skipOpening (h : skipOpening cs = .ok (none, rest)) : Passes cs rest := by
  refine ⟨1, Nat.one_pos, length_of_skipOpening h, fun steps containers ↦ ?_⟩
  rw [skipFrom_succ, h]
  rfl

/-- A container is passed over in one step more than its values. -/
theorem Closes.passes {container : Container} {inner : List Char}
    (opens : skipOpening cs = .ok (some container, inner))
    (closes : Closes container true inner rest) : Passes cs rest := by
  obtain ⟨k, hle, hk⟩ := closes
  have hinner := length_of_skipOpening opens
  refine ⟨k + 1, Nat.succ_pos k, by omega, fun steps containers ↦ ?_⟩
  rw [← Nat.add_assoc, skipFrom_succ, opens]
  exact hk steps containers

/-- The bracket that closes a container. -/
def closing : Container → Char
  | .list => ']'
  | .object => '\x7d'

theorem closes_of_closing {container : Container} {justOpened : Bool}
    (h : skipSpace cs = closing container :: rest) : Closes container justOpened cs rest := by
  refine ⟨0, Nat.le_of_lt (length_of_skipSpace_eq h), fun steps containers ↦ ?_⟩
  cases container <;>
  · rw [goOnBehind, List.length_cons, skipClosings, h]
    rfl

/-- The first or the next value of a list stands at `here`. -/
theorem closes_of_item {justOpened : Bool} {after : List Char}
    (next : nextItem justOpened cs = .ok (true, here)) (passes : Passes here after)
    (closes : Closes .list false after rest) : Closes .list justOpened cs rest := by
  obtain ⟨k, hpos, hle, hk⟩ := passes
  obtain ⟨l, hle', hl⟩ := closes
  have hgoes {front : List Char} (hfront : skipSpace front = skipSpace here)
      (steps : Nat) (containers : List Container) :
      goOn (steps + (l + k)) (.list :: containers, front) =
        goOnBehind steps false containers rest := by
    rw [goOn, ← skipFrom_skipSpace, hfront, skipFrom_skipSpace, ← Nat.add_assoc, hk, hl]
  simp only [nextItem] at next
  split at next
  · cases next
  · next c more hs =>
    have hmore := length_of_skipSpace_eq hs
    split at next
    · cases next
    · next hc =>
      split at next
      · next hfirst =>
        cases next
        subst hfirst
        refine ⟨l + k, by rw [List.length_cons] at hle; omega, fun steps containers ↦ ?_⟩
        rw [goOnBehind_of_skipClosings (.list :: containers) (c :: more)]
        · exact hgoes rfl steps containers
        · rw [List.length_cons, skipClosings, hs]
          simp [hc]
      · next hfirst =>
        have hfirst : justOpened = false := Bool.eq_false_iff.mpr hfirst
        subst hfirst
        split at next
        · next hcomma =>
          subst hcomma
          split at next
          · cases next
          · next d behind hd =>
            split at next
            · cases next
            · cases next
              have hspace := length_skipSpace_le more
              rw [hd] at hspace
              refine ⟨l + k, by omega, fun steps containers ↦ ?_⟩
              rw [goOnBehind_of_skipClosings (.list :: containers) more]
              · exact hgoes (by rw [skipSpace_cons hd, hd]) steps containers
              · rw [List.length_cons, skipClosings, hs]
                simp
        · cases next

/-- The name of the first or the next member of an object stands at `here`, its value at `text`. -/
theorem closes_of_member {justOpened : Bool} {name : String} {behind text after : List Char}
    (next : nextMember justOpened cs = .ok (true, here))
    (named : scanString here = .ok (name, behind)) (colon : readColon behind = .ok text)
    (passes : Passes text after) (closes : Closes .object false after rest) :
    Closes .object justOpened cs rest := by
  obtain ⟨k, hpos, hle, hk⟩ := passes
  obtain ⟨l, hle', hl⟩ := closes
  have hstring := skipString_of_scanString named
  have hbehind := length_of_skipStringFrom hstring
  have htext := length_of_readColon colon
  have hgoes {front : List Char} (hfront : skipSpace front = '"' :: here)
      (steps : Nat) (containers : List Container) :
      goOn (steps + (l + k)) (.object :: containers, front) =
        goOnBehind steps false containers rest := by
    have hname : skipName front = .ok text := by
      simp only [skipName, hfront, if_true]
      rw [hstring]
      exact colon
    rw [goOn, hname]
    exact (congrArg (skipFrom · _ text) (Nat.add_assoc steps l k).symm).trans
      ((hk _ _).trans (hl _ _))
  simp only [nextMember] at next
  split at next
  · cases next
  · next c more hs =>
    have hmore := length_of_skipSpace_eq hs
    split at next
    · cases next
    · next hc =>
      split at next
      · next hfirst =>
        split at next
        · next hquote =>
          cases next
          subst hfirst hquote
          refine ⟨l + k, by omega, fun steps containers ↦ ?_⟩
          rw [goOnBehind_of_skipClosings (.object :: containers) ('"' :: here)]
          · exact hgoes (skipSpace_cons hs) steps containers
          · rw [List.length_cons, skipClosings, hs]
            rfl
        · cases next
      · next hfirst =>
        have hfirst : justOpened = false := Bool.eq_false_iff.mpr hfirst
        subst hfirst
        split at next
        · next hcomma =>
          subst hcomma
          split at next
          · cases next
          · next d after' hd =>
            have hspace := length_of_skipSpace_eq hd
            split at next
            · next hquote =>
              cases next
              subst hquote
              refine ⟨l + k, by omega, fun steps containers ↦ ?_⟩
              rw [goOnBehind_of_skipClosings (.object :: containers) more]
              · exact hgoes hd steps containers
              · rw [List.length_cons, skipClosings, hs]
                rfl
            · split at next <;> cases next
        · cases next

/-! ### The passing over itself -/

theorem length_of_skipClosings {steps : Nat} {justOpened : Bool} {containers left : List Container}
    (h : skipClosings steps justOpened containers cs = .ok (left, rest)) :
    rest.length ≤ cs.length := by
  induction steps generalizing justOpened containers cs with
  | zero => cases h
  | succ steps ih =>
    cases containers with
    | nil =>
      cases h
      exact Nat.le_refl _
    | cons container outer =>
      simp only [skipClosings] at h
      split at h
      · cases h
      · next c more hs =>
        have hmore := length_of_skipSpace_eq hs
        generalize (if container = .list then ']' else '\x7d') = close at h
        split at h
        · cases h
          exact Nat.le_of_lt hmore
        split at h
        · exact Nat.le_trans (ih h) (Nat.le_of_lt hmore)
        split at h
        · cases h
          exact hmore
        · cases h

/-- What closes some containers closes them inside others too. -/
theorem skipClosings_append {justOpened : Bool} {inner left : List Container}
    (outer : List Container)
    (h : skipClosings (inner.length + 1) justOpened inner cs = .ok (left, rest)) :
    skipClosings ((inner ++ outer).length + 1) (justOpened && !inner.isEmpty) (inner ++ outer) cs =
      if left = [] then skipClosings (outer.length + 1) false outer rest
      else .ok (left ++ outer, rest) := by
  induction inner generalizing justOpened cs with
  | nil =>
    cases h
    simp
  | cons container inner ih =>
    simp only [List.length_cons, skipClosings] at h
    simp only [List.cons_append, List.length_cons, List.isEmpty_cons, Bool.not_false, Bool.and_true,
      skipClosings]
    split at h
    · cases h
    · next c more hs =>
      generalize (if container = .list then ']' else '\x7d') = close at h ⊢
      split at h
      · next hcomma =>
        cases h
        rw [if_pos hcomma]
        simp
      · next hcomma =>
        rw [if_neg hcomma]
        split at h
        · next hclosing =>
          rw [if_pos hclosing]
          exact ih h
        · next hclosing =>
          rw [if_neg hclosing]
          split at h
          · next hjust =>
            cases h
            rw [if_pos hjust]
            simp
          · cases h

theorem length_of_skipName (h : skipName cs = .ok rest) : rest.length < cs.length := by
  simp only [skipName] at h
  split at h
  · cases h
  · next hs =>
    split at h
    · obtain ⟨⟨_, behind⟩, hstring, h⟩ := eq_ok_of_bind h
      have hspace := length_of_skipSpace_eq hs
      have hbehind := length_of_skipStringFrom hstring
      have hcolon : rest.length < behind.length := length_of_readColon h
      omega
    · cases h

/-- What is passed over inside some containers is passed over inside others too. -/
theorem skipFrom_append {fuel : Nat} {inner : List Container} {u : Unit}
    (h : skipFrom fuel inner cs = .ok (u, rest)) :
    ∃ k, 0 < k ∧ rest.length + k ≤ cs.length ∧ ∀ steps outer,
      skipFrom (steps + k) (inner ++ outer) cs = goOnBehind steps false outer rest := by
  induction fuel generalizing inner cs with
  | zero => cases h
  | succ fuel ih =>
    rw [skipFrom_succ] at h
    obtain ⟨⟨opened, behind⟩, hopening, h⟩ := eq_ok_of_bind h
    obtain ⟨⟨left, after⟩, hclosings, h⟩ := eq_ok_of_bind h
    have hbehind := length_of_skipOpening hopening
    have hafter := length_of_skipClosings hclosings
    have hjust : (opened.isSome && !(opened.toList ++ inner).isEmpty) = opened.isSome := by
      cases opened <;> rfl
    -- Inside the other containers the first value leads to the same place.
    have hfirst (steps : Nat) (outer : List Container) :
        skipFrom (steps + 1) (inner ++ outer) cs =
          (if left = [] then skipClosings (outer.length + 1) false outer after
            else .ok (left ++ outer, after)) >>= goOn steps := by
      rw [← skipClosings_append outer hclosings, hjust, skipFrom_succ, hopening,
        List.append_assoc]
      rfl
    match left, h with
    | [], h =>
      cases h
      exact ⟨1, Nat.one_pos, by omega, fun steps outer ↦ hfirst steps outer⟩
    | .list :: left, h =>
      obtain ⟨k, _, hle, hk⟩ := ih h
      exact ⟨k + 1, Nat.succ_pos k, by omega, fun steps outer ↦
        (hfirst (steps + k) outer).trans (hk steps outer)⟩
    | .object :: left, h =>
      obtain ⟨text, hname, h⟩ := eq_ok_of_bind h
      have htext := length_of_skipName hname
      obtain ⟨k, _, hle, hk⟩ := ih h
      refine ⟨k + 1, Nat.succ_pos k, by omega,
        fun steps outer ↦ (hfirst (steps + k) outer).trans ?_⟩
      rw [if_neg (List.cons_ne_nil _ _)]
      refine Eq.trans ?_ (hk steps outer)
      change (skipName after >>= fun text ↦ skipFrom _ _ text) = _
      rw [hname]
      rfl

/-- What is passed over alone is passed over inside any containers. -/
theorem passes_of_skipValue {u : Unit} (h : skipValue cs = .ok (u, rest)) : Passes cs rest :=
  skipFrom_append h

/-! ### Lists and objects -/

/-- A reader leaves what the passing over of a value leaves. -/
def Passing {α : Type} (reader : Reader α) : Prop :=
  ∀ ⦃cs a rest⦄, reader cs = .ok (a, rest) → Passes cs rest

theorem skipSpace_of_nextItem {isFirst : Bool} (h : nextItem isFirst cs = .ok (false, rest)) :
    skipSpace cs = ']' :: rest := by
  simp only [nextItem] at h
  split at h
  · cases h
  · next hs =>
    split at h
    · next hc =>
      cases h
      rw [hs, hc]
    split at h
    · cases h
    split at h
    · split at h
      · cases h
      · split at h <;> cases h
    · cases h

theorem skipSpace_of_nextMember {isFirst : Bool} (h : nextMember isFirst cs = .ok (false, rest)) :
    skipSpace cs = '\x7d' :: rest := by
  simp only [nextMember] at h
  split at h
  · cases h
  · next hs =>
    split at h
    · next hc =>
      cases h
      rw [hs, hc]
    split at h
    · split at h <;> cases h
    split at h
    · split at h
      · cases h
      · split at h
        · cases h
        · split at h <;> cases h
    · cases h

/-- A list whose items are read as they are passed over. -/
theorem closes_of_readItems {σ : Type} {item : σ → Reader σ} (passing : ∀ s, Passing (item s))
    {steps : Nat} {isFirst : Bool} {s t : σ}
    (h : readItems item steps isFirst s cs = .ok (t, rest)) :
    Closes .list isFirst cs rest := by
  induction steps generalizing isFirst s cs with
  | zero => cases h
  | succ steps ih =>
    rw [readItems] at h
    obtain ⟨⟨more, here⟩, hnext, h⟩ := eq_ok_of_bind h
    cases more with
    | false =>
      cases h
      exact closes_of_closing (skipSpace_of_nextItem hnext)
    | true =>
      obtain ⟨⟨t', after⟩, hitem, h⟩ := eq_ok_of_bind h
      exact closes_of_item hnext (passing s hitem) (ih h)

/-- A reader of members leaves what the passing over of a member's value leaves. -/
def PassingMember {σ : Type} (member : String → σ → Reader σ) : Prop :=
  ∀ ⦃name s cs t rest⦄, member name s cs = .ok (t, rest) →
    ∃ text, readColon cs = .ok text ∧ Passes text rest

/-- An object whose members are read as they are passed over. -/
theorem closes_of_readMembers {σ : Type} {member : String → σ → Reader σ}
    (passing : PassingMember member) {steps : Nat} {isFirst : Bool} {s t : σ}
    (h : readMembers member steps isFirst s cs = .ok (t, rest)) :
    Closes .object isFirst cs rest := by
  induction steps generalizing isFirst s cs with
  | zero => cases h
  | succ steps ih =>
    rw [readMembers] at h
    obtain ⟨⟨more, here⟩, hnext, h⟩ := eq_ok_of_bind h
    cases more with
    | false =>
      cases h
      exact closes_of_closing (skipSpace_of_nextMember hnext)
    | true =>
      obtain ⟨⟨name, behind⟩, hname, h⟩ := eq_ok_of_bind h
      obtain ⟨⟨t', after⟩, hmember, h⟩ := eq_ok_of_bind h
      obtain ⟨text, hcolon, hpasses⟩ := passing hmember
      exact closes_of_member hnext hname hcolon hpasses (ih h)

end LanguageHub.Json

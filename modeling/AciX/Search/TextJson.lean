import AciX.Search.TextObject

/-!
# Text objects

`ConvertTextJson` replaces each object with the only member `_t` by the value of that member, with a
regular expression: a value in quotation marks is taken up to the next one, anything else up to the
next brace. So a string that has both an escaped quotation mark and a brace is cut, and a key that
is written with escapes is not seen. In every other case the document is preserved
(`preserves_iff`).
-/

namespace AciX.Json

open List

open Profile

section Statement

def IsT (key : Str) : Prop := key.map StrChar.code = ['_'.toNat, 't'.toNat]

instance (key : Str) : Decidable (IsT key) := inferInstanceAs (Decidable (_ = _))

def Value.isLeaf : Value → Bool
  | .scalar _ => true
  | .string _ => true
  | _ => false

def Members.HasT : Members → Prop
  | .nil => False
  | .cons _ key _ _ _ _ rest => IsT key ∨ rest.HasT

mutual

def Value.TextOnly : Value → Prop
  | .scalar _ => True
  | .string _ => True
  | .emptyArray _ => True
  | .array _ v _ rest => v.TextOnly ∧ rest.TextOnly
  | .emptyObject _ => True
  | .object _ key _ _ v _ rest =>
    (IsT key ∨ rest.HasT → rest = .nil ∧ v.isLeaf = true) ∧ v.TextOnly ∧ rest.TextOnly

def Elements.TextOnly : Elements → Prop
  | .nil => True
  | .cons _ v _ rest => v.TextOnly ∧ rest.TextOnly

def Members.TextOnly : Members → Prop
  | .nil => True
  | .cons _ _ _ _ v _ rest => v.TextOnly ∧ rest.TextOnly

end

section Unwrap

variable (keep : Value → Bool)

def Value.tail : Value → White
  | .object _ key _ _ v after _ => if IsT key ∧ keep v = true then after else .empty
  | _ => .empty

mutual

def Value.unwrap : Value → Value
  | .scalar s => .scalar s
  | .string s => .string s
  | .emptyArray w => .emptyArray w
  | .array before v after rest =>
    .array before v.unwrap ((v.tail keep).append after) rest.unwrap
  | .emptyObject w => .emptyObject w
  | .object beforeKey key afterKey before v after rest =>
    if IsT key then v
    else .object beforeKey key afterKey before v.unwrap ((v.tail keep).append after) rest.unwrap

def Elements.unwrap : Elements → Elements
  | .nil => .nil
  | .cons before v after rest => .cons before v.unwrap ((v.tail keep).append after) rest.unwrap

def Members.unwrap : Members → Members
  | .nil => .nil
  | .cons beforeKey key afterKey before v after rest =>
    .cons beforeKey key afterKey before v.unwrap ((v.tail keep).append after) rest.unwrap

end

def Document.unwrap (d : Document) : Document :=
  ⟨d.before, d.value.unwrap keep, (d.value.tail keep).append d.after⟩

end Unwrap

/-- The result is the document with its text objects replaced and nothing else changed, but for
white space that stood in such an object; and a second call changes nothing. -/
def Preserves (d : Document) : Prop :=
  (∃ keep, convertTextJson d.text = (d.unwrap keep).text) ∧
    convertTextJson (convertTextJson d.text) = convertTextJson d.text

def Value.Uncut : Value → Prop
  | .string s => ¬ ('"' ∈ s.text ∧ '\x7d' ∈ s.text)
  | _ => True

mutual

def Value.Seen : Value → Prop
  | .scalar _ => True
  | .string _ => True
  | .emptyArray _ => True
  | .array _ v _ rest => v.Seen ∧ rest.Seen
  | .emptyObject _ => True
  | .object _ key _ _ v _ rest =>
    (IsT key → key.text = ['_', 't'] ∧ v.Uncut) ∧ v.Seen ∧ rest.Seen

def Elements.Seen : Elements → Prop
  | .nil => True
  | .cons _ v _ rest => v.Seen ∧ rest.Seen

def Members.Seen : Members → Prop
  | .nil => True
  | .cons _ _ _ _ v _ rest => v.Seen ∧ rest.Seen

end

end Statement

section Converts

def isPlain (c : Char) : Bool := c ≠ '\x7b' && c ≠ '"' && c ≠ '\x7d'

/-- The part `s` of a document is converted to `out`, which closes so many objects and then some
more. It is `ideal` if there are none of these. -/
structure Converts (s out ideal : Text) (objects surplus : ℕ) : Prop where
  convert : ∀ rest, Follows rest → convertTextJson (s ++ rest) = out ++ convertTextJson rest
  closers : ∀ rest, closers false (out ++ rest) = objects + surplus + closers false rest
  ideal : surplus = 0 → out = ideal

namespace Converts

variable {s out ideal s' out' ideal' : Text} {n k n' k' : ℕ}

theorem nil : Converts [] [] [] 0 0 := ⟨fun _ _ => rfl, by simp, fun _ => rfl⟩

theorem append (h : Converts s out ideal n k) (h' : Converts s' out' ideal' n' k')
    (hfollows : ∀ rest, Follows rest → Follows (s' ++ rest)) :
    Converts (s ++ s') (out ++ out') (ideal ++ ideal') (n + n') (k + k') where
  convert rest hrest := by
    rw [append_assoc, h.convert _ (hfollows rest hrest), h'.convert rest hrest, append_assoc]
  closers rest := by
    rw [append_assoc, h.closers, h'.closers]
    omega
  ideal hk := by rw [h.ideal (by omega), h'.ideal (by omega)]

theorem cons {c : Char} (hc : isPlain c = true) (h : Converts s out ideal n k) :
    Converts (c :: s) (c :: out) (c :: ideal) n k := by
  simp only [isPlain, Bool.and_eq_true, decide_eq_true_eq] at hc
  obtain ⟨⟨hopen, hquote⟩, hclose⟩ := hc
  refine ⟨fun rest hrest => ?_, fun rest => ?_, fun hk => by rw [h.ideal hk]⟩
  · rw [cons_append, convert_cons hopen, h.convert rest hrest, cons_append]
  · rw [cons_append, closers_cons hquote hclose, h.closers]

theorem close (h : Converts s out ideal n k) :
    Converts ('\x7d' :: s) ('\x7d' :: out) ('\x7d' :: ideal) (n + 1) k where
  convert rest hrest := by
    rw [cons_append, convert_cons (by decide), h.convert rest hrest, cons_append]
  closers rest := by
    rw [cons_append, closers_brace, h.closers]
    omega
  ideal hk := by rw [h.ideal hk]

theorem «open» (hnone : ∀ rest, textObject ('\x7b' :: (s ++ rest)) = none)
    (h : Converts s out ideal n k) :
    Converts ('\x7b' :: s) ('\x7b' :: out) ('\x7b' :: ideal) n k where
  convert rest hrest := by
    rw [cons_append, convert_none (hnone rest), h.convert rest hrest, cons_append]
  closers rest := by rw [cons_append, closers_cons (by decide) (by decide), h.closers]
  ideal hk := by rw [h.ideal hk]

theorem white (w : White) (h : Converts s out ideal n k) :
    Converts (w.1 ++ s) (w.1 ++ out) (w.1 ++ ideal) n k where
  convert rest hrest := by
    rw [append_assoc, convert_append (by decide) _ w.2, h.convert rest hrest, append_assoc]
  closers rest := by rw [append_assoc, closers_white, h.closers]
  ideal hk := by rw [h.ideal hk]

theorem scalar (s : Scalar) : Converts s.text s.text s.text 0 0 where
  convert rest _ := convert_append (by decide) rest s.text_bare
  closers rest := by rw [closers_scalar, Nat.add_zero, Nat.zero_add]
  ideal _ := rfl

theorem quoted (s : Str) : Converts s.quoted s.quoted s.quoted 0 0 where
  convert _ hrest := convert_quoted s hrest
  closers rest := by rw [closers_quoted, Nat.add_zero, Nat.zero_add]
  ideal _ := rfl

theorem of_eq (h : Converts s out ideal n k) (hideal : ideal = ideal') (hn : n = n') :
    Converts s out ideal' n' k := by
  rw [← hideal, ← hn]
  exact h

theorem surplus (h : Converts s out ideal (n + 1) k) (ideal' : Text) :
    Converts s out ideal' n (k + 1) where
  convert := h.convert
  closers rest := by
    rw [h.closers]
    omega
  ideal hk := absurd hk (by omega)

end Converts

theorem follows_elements (es : Elements) {rest : Text} (h : Follows rest) :
    Follows (es.text ++ rest) := by
  cases es
  · exact h
  · exact follows_cons (by decide) _

theorem follows_members (ms : Members) {rest : Text} (h : Follows rest) :
    Follows (ms.text ++ rest) := by
  cases ms
  · exact h
  · exact follows_cons (by decide) _

section Text

variable {key : Str} {beforeKey afterKey before after : White} {v : Value}

theorem textObject_leaf (beforeKey afterKey before after : White) (hkey : key.text = ['_', 't'])
    (hv : v.isLeaf = true) (rest : Text) :
    textObject ((Value.object beforeKey key afterKey before v after .nil).text ++ rest) =
      (quotedValue (v.text ++ (after.1 ++ '\x7d' :: rest))).or
        (plainValue (v.text ++ (after.1 ++ '\x7d' :: rest))) := by
  have hhead : ∃ c x, v.text = c :: x ∧ isSpace c = false := by
    match v with
    | .scalar s =>
      obtain ⟨c, x, hx⟩ := exists_cons_of_ne_nil s.text_ne_nil
      refine ⟨c, x, hx, not_isSpace_of_isBare (all_eq_true.1 s.text_bare c ?_)⟩
      rw [hx]
      exact mem_cons_self
    | .string s => exact ⟨'"', _, rfl, by decide⟩
  obtain ⟨c, x, hx, hc⟩ := hhead
  have htext : (Value.object beforeKey key afterKey before v after .nil).text ++ rest =
      '\x7b' :: (beforeKey.1 ++ (key.quoted ++ (afterKey.1 ++ (':' :: (before.1 ++
        c :: (x ++ (after.1 ++ '\x7d' :: rest))))))) := by
    simp [Value.text, Members.text, hx]
  rw [htext, textObject_text hkey beforeKey afterKey before hc, hx, List.cons_append]

theorem converts_leaf (hkey : key.text = ['_', 't']) (hv : v.isLeaf = true) {out : Text}
    (hvalue : ∀ rest, (quotedValue (v.text ++ (after.1 ++ '\x7d' :: rest))).or
      (plainValue (v.text ++ (after.1 ++ '\x7d' :: rest))) = some (out, rest))
    (hclosers : ∀ rest, closers false (out ++ rest) = closers false rest) :
    Converts (Value.object beforeKey key afterKey before v after .nil).text out out 0 0 where
  convert rest _ := by
    have htext := textObject_leaf beforeKey afterKey before after hkey hv rest
    rw [hvalue] at htext
    exact convert_some htext
  closers rest := by rw [hclosers, Nat.add_zero, Nat.zero_add]
  ideal _ := rfl

theorem converts_cut (beforeKey afterKey before after : White) (hkey : key.text = ['_', 't'])
    {s : Str} (h : '"' ∈ s.text) (h' : '\x7d' ∈ s.text) (ideal : Text) : ∃ out,
      Converts (Value.object beforeKey key afterKey before (.string s) after .nil).text out
        ideal 0 1 := by
  obtain ⟨p, q, hcut⟩ := value_cut h h'
  refine ⟨Str.quoted (p ++ q) ++ (after.1 ++ ['\x7d']), ?_, fun rest => ?_, nofun⟩
  · intro rest _
    have htext := textObject_leaf beforeKey afterKey before after (v := .string s) hkey rfl rest
    rw [Value.text, hcut] at htext
    have hrest : convertTextJson (q.text ++ '"' :: (after.1 ++ '\x7d' :: rest)) =
        q.text ++ '"' :: (after.1 ++ '\x7d' :: convertTextJson rest) := by
      rw [convert_str (follows_white (follows_cons (by decide) _) after),
        convert_append (by decide) _ after.2, convert_cons (by decide)]
    refine (convert_some htext).trans ?_
    rw [hrest]
    simp [Str.quoted]
  · simp only [append_assoc, cons_append, nil_append]
    rw [closers_quoted, closers_white, closers_brace]
    omega

end Text

/-- The white space after a value stays unless the value is taken by its quotation marks. -/
def keepWhite : Value → Bool
  | .string s => '"' ∈ s.text
  | _ => true

theorem isT_of_text : ∀ {key : Str}, key.text = ['_', 't'] → IsT key
  | [], h => by simp at h
  | .plain _ _ :: [], h => by simp [StrChar.text] at h
  | .plain c _ :: .plain d _ :: key, h => by
    simp only [Str.text_cons, StrChar.text, List.cons_append, List.nil_append, List.cons.injEq] at h
    obtain ⟨rfl, rfl, hkey⟩ := h
    rcases key with _ | ⟨e, key⟩
    · rfl
    · cases e <;> simp [StrChar.text] at hkey
  | .plain _ _ :: .escape _ _ :: _, h => by simp [StrChar.text] at h
  | .plain _ _ :: .unicode _ _ :: _, h => by simp [StrChar.text] at h
  | .escape _ _ :: _, h => by simp [StrChar.text] at h
  | .unicode _ _ :: _, h => by simp [StrChar.text] at h

theorem objects_leaf {v : Value} (h : v.isLeaf = true) : v.objects = 0 := by
  cases v <;> first | rfl | cases h

theorem unwrap_leaf {keep : Value → Bool} {v : Value} (h : v.isLeaf = true) :
    v.unwrap keep = v := by
  cases v <;> first | rfl | cases h

theorem seen_leaf {v : Value} (h : v.isLeaf = true) : v.Seen := by
  cases v <;> trivial

theorem converts_textObject {key : Str} {v : Value} (beforeKey afterKey before after : White)
    (hkey : key.text = ['_', 't']) (hv : v.isLeaf = true) : ∃ out k,
      Converts (Value.object beforeKey key afterKey before v after .nil).text out
        (v.text ++ (if keepWhite v = true then after else .empty).1) 0 k ∧
      (k = 0 ↔ v.Uncut) := by
  match v with
  | .scalar s =>
    refine ⟨s.text ++ after.1, 0, converts_leaf hkey hv (value_scalar s after) fun rest => ?_,
      by simp [Value.Uncut]⟩
    rw [List.append_assoc, closers_scalar, closers_white]
  | .string s =>
    by_cases hquote : '"' ∈ s.text
    · simp only [keepWhite, hquote, decide_true, if_true]
      by_cases hbrace : '\x7d' ∈ s.text
      · obtain ⟨out, hout⟩ := converts_cut beforeKey afterKey before after hkey hquote hbrace _
        exact ⟨out, 1, hout, by simp [Value.Uncut, hquote, hbrace]⟩
      · refine ⟨s.quoted ++ after.1, 0, converts_leaf hkey hv (value_escaped hquote hbrace after)
          fun rest => ?_, by simp [Value.Uncut, hbrace]⟩
        rw [append_assoc, closers_quoted, closers_white]
    · simp only [keepWhite, hquote, decide_false, Bool.false_eq_true, if_false, White.coe_empty,
        append_nil]
      exact ⟨s.quoted, 0, converts_leaf hkey hv (value_quoted hquote after) (closers_quoted s),
        by simp [Value.Uncut, hquote]⟩

theorem converts_member {s out ideal t out' ideal' : Text} {n k n' k' : ℕ} (beforeKey : White)
    (key : Str) (afterKey before after : White) (hv : Converts s out ideal n k)
    (ht : Converts t out' ideal' n' k') (hfollows : ∀ rest, Follows rest → Follows (t ++ rest)) :
    ∃ out'', Converts (beforeKey.1 ++ (key.quoted ++ (afterKey.1 ++ (':' :: (before.1 ++ (s ++
        (after.1 ++ t))))))) out''
      (beforeKey.1 ++ (key.quoted ++ (afterKey.1 ++ (':' :: (before.1 ++ (ideal ++
        (after.1 ++ ideal'))))))) (n + n') (k + k') := by
  have hvalue := (hv.append (ht.white after) fun rest hrest => by
    rw [append_assoc]
    exact follows_white (hfollows rest hrest) after).white before
  have hcolon := (hvalue.cons (c := ':') rfl).white afterKey
  have hkey := ((Converts.quoted key).append hcolon fun rest _ => by
    rw [append_assoc]
    exact follows_white (follows_cons (by decide) _) afterKey).white beforeKey
  rw [Nat.zero_add, Nat.zero_add] at hkey
  exact ⟨_, hkey⟩

theorem follows_end (ms : Members) (rest : Text) : Follows (ms.text ++ ['\x7d'] ++ rest) := by
  rw [append_assoc]
  exact follows_members ms (follows_cons (by decide) _)

mutual

theorem converts_value : ∀ v : Value, v.TextOnly → ∃ out k,
    Converts v.text out ((v.unwrap keepWhite).text ++ (v.tail keepWhite).1)
      (v.unwrap keepWhite).objects k ∧ (k = 0 ↔ v.Seen)
  | .scalar s, _ => by
    refine ⟨s.text, 0, (Converts.scalar s).of_eq ?_ rfl, by simp [Value.Seen]⟩
    simp [Value.unwrap, Value.text, Value.tail]
  | .string s, _ => by
    refine ⟨s.quoted, 0, (Converts.quoted s).of_eq ?_ rfl, by simp [Value.Seen]⟩
    simp [Value.unwrap, Value.text, Value.tail]
  | .emptyArray w, _ => by
    refine ⟨_, 0, (Converts.nil.cons (c := ']') rfl).white w
      |>.cons (c := '[') rfl |>.of_eq ?_ rfl, by simp [Value.Seen]⟩
    simp [Value.unwrap, Value.text, Value.tail]
  | .array before v after es, h => by
    rw [Value.TextOnly] at h
    obtain ⟨out, k, hv, hk⟩ := converts_value v h.1
    obtain ⟨out', k', hes, hk'⟩ := converts_elements es h.2
    have hend := Converts.nil.cons (c := ']') rfl
    have hrest := (hes.append hend fun rest _ => follows_cons (by decide) _).white after
    refine ⟨_, k + (k' + 0), ((hv.append hrest fun rest hrest => ?_).white before).cons
      (c := '[') rfl |>.of_eq ?_ ?_, ?_⟩
    · rw [append_assoc, append_assoc]
      exact follows_white (follows_elements es (follows_cons (by decide) _)) after
    · simp [Value.unwrap, Value.text, Value.tail]
    · simp [Value.unwrap, Value.objects]
    · rw [Value.Seen, ← hk, ← hk']
      omega
  | .emptyObject w, _ => by
    refine ⟨_, 0, Converts.open (fun rest => ?_) (Converts.nil.close.white w) |>.of_eq ?_ rfl,
      by simp [Value.Seen]⟩
    · rw [append_assoc]
      exact textObject_empty w rest
    · simp [Value.unwrap, Value.text, Value.tail]
  | .object beforeKey key afterKey before v after ms, h => by
    rw [Value.TextOnly] at h
    by_cases hT : IsT key ∧ key.text = ['_', 't']
    · obtain ⟨rfl, hv⟩ := h.1 (.inl hT.1)
      obtain ⟨out, k, hout, hk⟩ := converts_textObject (v := v) beforeKey afterKey before after
        hT.2 hv
      refine ⟨out, k, hout.of_eq ?_ ?_, ?_⟩
      · simp [Value.unwrap, Value.tail, hT.1]
      · rw [Value.unwrap, if_pos hT.1, objects_leaf hv]
      · rw [hk]
        simp [Value.Seen, Members.Seen, hT, seen_leaf hv]
    · obtain ⟨out, k, hv, hk⟩ := converts_value v h.2.1
      obtain ⟨out', k', hms, hk'⟩ := converts_members ms h.2.2
      have htext : key.text ≠ ['_', 't'] := fun heq => hT ⟨isT_of_text heq, heq⟩
      obtain ⟨out'', hall⟩ := converts_member beforeKey key afterKey before after hv
        (hms.append Converts.nil.close fun rest _ => follows_cons (by decide) _)
        fun rest _ => follows_end ms rest
      have hobject := Converts.open (fun rest => by
        rw [append_assoc, append_assoc]
        exact textObject_key htext beforeKey _) hall
      by_cases hkey : IsT key
      · obtain ⟨rfl, hleaf⟩ := h.1 (.inl hkey)
        have hn : (v.unwrap keepWhite).objects = 0 := by rw [unwrap_leaf hleaf, objects_leaf hleaf]
        refine ⟨_, _, (hobject.of_eq rfl ?_).surplus _, ?_⟩
        · rw [Value.unwrap, if_pos hkey, objects_leaf hleaf, hn]
          rfl
        · simp [Value.Seen, hkey, htext]
      · refine ⟨_, k + (k' + 0), hobject.of_eq ?_ ?_, ?_⟩
        · simp [Value.unwrap, hkey, Value.text, Value.tail]
        · simp [Value.unwrap, hkey, Value.objects, Nat.add_assoc]
        · rw [Value.Seen, ← hk, ← hk']
          simp [hkey]

theorem converts_elements : ∀ es : Elements, es.TextOnly → ∃ out k,
    Converts es.text out (es.unwrap keepWhite).text (es.unwrap keepWhite).objects k ∧
      (k = 0 ↔ es.Seen)
  | .nil, _ => ⟨[], 0, Converts.nil, by simp [Elements.Seen]⟩
  | .cons before v after es, h => by
    rw [Elements.TextOnly] at h
    obtain ⟨out, k, hv, hk⟩ := converts_value v h.1
    obtain ⟨out', k', hes, hk'⟩ := converts_elements es h.2
    refine ⟨_, k + k', ((hv.append (hes.white after) fun rest hrest => ?_).white before).cons
      (c := ',') rfl |>.of_eq ?_ ?_, ?_⟩
    · rw [append_assoc]
      exact follows_white (follows_elements es hrest) after
    · simp [Elements.unwrap, Elements.text]
    · simp [Elements.unwrap, Elements.objects]
    · rw [Elements.Seen, ← hk, ← hk']
      omega

theorem converts_members : ∀ ms : Members, ms.TextOnly → ∃ out k,
    Converts ms.text out (ms.unwrap keepWhite).text (ms.unwrap keepWhite).objects k ∧
      (k = 0 ↔ ms.Seen)
  | .nil, _ => ⟨[], 0, Converts.nil, by simp [Members.Seen]⟩
  | .cons beforeKey key afterKey before v after ms, h => by
    rw [Members.TextOnly] at h
    obtain ⟨out, k, hv, hk⟩ := converts_value v h.1
    obtain ⟨out', k', hms, hk'⟩ := converts_members ms h.2
    obtain ⟨out'', hall⟩ := converts_member beforeKey key afterKey before after hv hms
      fun rest hrest => follows_members ms hrest
    refine ⟨_, k + k', hall.cons (c := ',') rfl |>.of_eq ?_ ?_, ?_⟩
    · simp [Members.unwrap, Members.text]
    · simp [Members.unwrap, Members.objects]
    · rw [Members.Seen, ← hk, ← hk']
      omega

end

end Converts

section Unwrapped

variable {keep keep' : Value → Bool}

mutual

theorem objects_unwrap (keep keep' : Value → Bool) :
    ∀ v : Value, (v.unwrap keep).objects = (v.unwrap keep').objects
  | .scalar _ => rfl
  | .string _ => rfl
  | .emptyArray _ => rfl
  | .array _ v _ es => by
    simp only [Value.unwrap, Value.objects, objects_unwrap keep keep' v,
      objects_unwrap_elements keep keep' es]
  | .emptyObject _ => rfl
  | .object _ key _ _ v _ ms => by
    simp only [Value.unwrap]
    split_ifs
    · rfl
    · simp only [Value.objects, objects_unwrap keep keep' v, objects_unwrap_members keep keep' ms]

theorem objects_unwrap_elements (keep keep' : Value → Bool) :
    ∀ es : Elements, (es.unwrap keep).objects = (es.unwrap keep').objects
  | .nil => rfl
  | .cons _ v _ es => by
    simp only [Elements.unwrap, Elements.objects, objects_unwrap keep keep' v,
      objects_unwrap_elements keep keep' es]

theorem objects_unwrap_members (keep keep' : Value → Bool) :
    ∀ ms : Members, (ms.unwrap keep).objects = (ms.unwrap keep').objects
  | .nil => rfl
  | .cons _ _ _ _ v _ ms => by
    simp only [Members.unwrap, Members.objects, objects_unwrap keep keep' v,
      objects_unwrap_members keep keep' ms]

end

structure Value.Done (keep : Value → Bool) (v : Value) : Prop where
  textOnly : v.TextOnly
  seen : v.Seen
  unwrap : v.unwrap keep = v
  tail : v.tail keep = .empty

structure Elements.Done (keep : Value → Bool) (es : Elements) : Prop where
  textOnly : es.TextOnly
  seen : es.Seen
  unwrap : es.unwrap keep = es

structure Members.Done (keep : Value → Bool) (ms : Members) : Prop where
  textOnly : ms.TextOnly
  seen : ms.Seen
  unwrap : ms.unwrap keep = ms

theorem done_leaf {v : Value} (h : v.isLeaf = true) : v.Done keep := by
  cases v <;> first | exact ⟨trivial, trivial, rfl, rfl⟩ | cases h

theorem hasT_unwrap : ∀ {ms : Members}, (ms.unwrap keep).HasT → ms.HasT
  | .cons _ _ _ _ _ _ _, .inl h => .inl h
  | .cons _ _ _ _ _ _ _, .inr h => .inr (hasT_unwrap h)

theorem empty_append (w : White) : White.empty.append w = w := rfl

mutual

theorem unwrap_done (keep : Value → Bool) : ∀ v : Value, v.TextOnly → (v.unwrap keep).Done keep
  | .scalar _, _ => done_leaf rfl
  | .string _, _ => done_leaf rfl
  | .emptyArray _, _ => ⟨trivial, trivial, rfl, rfl⟩
  | .array _ v _ es, h => by
    rw [Value.TextOnly] at h
    have hv := unwrap_done keep v h.1
    have hes := unwrap_done_elements keep es h.2
    refine ⟨⟨hv.textOnly, hes.textOnly⟩, ⟨hv.seen, hes.seen⟩, ?_, rfl⟩
    simp only [Value.unwrap, hv.unwrap, hv.tail, hes.unwrap, empty_append]
  | .emptyObject _, _ => ⟨trivial, trivial, rfl, rfl⟩
  | .object _ key _ _ v _ ms, h => by
    rw [Value.TextOnly] at h
    rw [Value.unwrap]
    split_ifs with hkey
    · exact done_leaf (h.1 (.inl hkey)).2
    · have hv := unwrap_done keep v h.2.1
      have hms := unwrap_done_members keep ms h.2.2
      have hnone : ¬ ms.HasT := by
        intro hT
        obtain ⟨rfl, -⟩ := h.1 (.inr hT)
        exact hT
      refine ⟨⟨?_, hv.textOnly, hms.textOnly⟩, ⟨?_, hv.seen, hms.seen⟩, ?_, ?_⟩
      · rintro (hT | hT)
        · exact absurd hT hkey
        · exact absurd (hasT_unwrap hT) hnone
      · exact fun hT => absurd hT hkey
      · simp only [Value.unwrap, hkey, if_false, hv.unwrap, hv.tail, hms.unwrap, empty_append]
      · simp only [Value.tail, hkey, false_and, if_false]

theorem unwrap_done_elements (keep : Value → Bool) :
    ∀ es : Elements, es.TextOnly → (es.unwrap keep).Done keep
  | .nil, _ => ⟨trivial, trivial, rfl⟩
  | .cons _ v _ es, h => by
    rw [Elements.TextOnly] at h
    have hv := unwrap_done keep v h.1
    have hes := unwrap_done_elements keep es h.2
    refine ⟨⟨hv.textOnly, hes.textOnly⟩, ⟨hv.seen, hes.seen⟩, ?_⟩
    simp only [Elements.unwrap, hv.unwrap, hv.tail, hes.unwrap, empty_append]

theorem unwrap_done_members (keep : Value → Bool) :
    ∀ ms : Members, ms.TextOnly → (ms.unwrap keep).Done keep
  | .nil, _ => ⟨trivial, trivial, rfl⟩
  | .cons _ _ _ _ v _ ms, h => by
    rw [Members.TextOnly] at h
    have hv := unwrap_done keep v h.1
    have hms := unwrap_done_members keep ms h.2
    refine ⟨⟨hv.textOnly, hms.textOnly⟩, ⟨hv.seen, hms.seen⟩, ?_⟩
    simp only [Members.unwrap, hv.unwrap, hv.tail, hms.unwrap, empty_append]

end

end Unwrapped

section Document

variable {d : Document}

theorem convert_document {out ideal : Text} {n k : ℕ}
    (h : Converts d.value.text out ideal n k) :
    convertTextJson d.text = d.before.1 ++ (out ++ d.after.1) := by
  have hafter : convertTextJson d.after.1 = d.after.1 := by
    have := convert_append (p := isWhite) (by decide) [] d.after.2
    rwa [append_nil, show convertTextJson [] = [] from rfl, append_nil] at this
  have hfollows : Follows d.after.1 := by
    have hnil : Follows [] := by simp [Follows]
    have := follows_white hnil d.after
    rwa [append_nil] at this
  rw [Document.text, convert_append (by decide) _ d.before.2, h.convert _ hfollows, hafter]

theorem convert_seen (h : d.value.TextOnly) (hseen : d.value.Seen) :
    convertTextJson d.text = (d.unwrap keepWhite).text := by
  obtain ⟨out, k, hout, hk⟩ := converts_value d.value h
  rw [convert_document hout, hout.ideal (hk.2 hseen)]
  simp [Document.unwrap, Document.text]

theorem unwrap_unwrap (h : d.value.TextOnly) :
    (d.unwrap keepWhite).unwrap keepWhite = d.unwrap keepWhite := by
  have hdone := unwrap_done keepWhite d.value h
  simp only [Document.unwrap, hdone.unwrap, hdone.tail, empty_append]

theorem seen_of_closers (h : d.value.TextOnly) {keep : Value → Bool}
    (hconvert : convertTextJson d.text = (d.unwrap keep).text) : d.value.Seen := by
  obtain ⟨out, k, hout, hk⟩ := converts_value d.value h
  have hleft : closers false (convertTextJson d.text) = (d.value.unwrap keepWhite).objects + k := by
    rw [convert_document hout, closers_white, hout.closers]
    have hafter := closers_white d.after []
    rw [append_nil] at hafter
    rw [hafter, closers, Nat.add_zero]
  rw [hconvert, closers_document] at hleft
  have hobjects := objects_unwrap keep keepWhite d.value
  exact hk.1 (by simp only [Document.unwrap] at hleft; omega)

/-- A document is preserved exactly if its keys `_t` are written so, and no text that they hold has
both an escaped quotation mark and a closing brace. -/
theorem preserves_iff (h : d.value.TextOnly) : Preserves d ↔ d.value.Seen := by
  constructor
  · rintro ⟨⟨keep, hconvert⟩, -⟩
    exact seen_of_closers h hconvert
  · intro hseen
    have hconvert := convert_seen h hseen
    refine ⟨⟨keepWhite, hconvert⟩, ?_⟩
    have hdone := unwrap_done keepWhite d.value h
    rw [hconvert, convert_seen hdone.textOnly hdone.seen, unwrap_unwrap h]

end Document

def keyT : Str := [.plain '_' (by decide), .plain 't' (by decide)]

def textDocument (s : Str) : Document where
  before := .empty
  value := .object .empty keyT .empty .empty (.string s) .empty .nil
  after := .empty

theorem textDocument_textOnly (s : Str) : (textDocument s).value.TextOnly :=
  ⟨fun _ => ⟨rfl, rfl⟩, trivial, trivial⟩

def aBrace : StrChar := .plain '\x7d' (by decide)

def aQuote : StrChar := .escape '"' (by simp)

theorem brace_preserved :
    (textDocument [aBrace]).value.TextOnly ∧ Preserves (textDocument [aBrace]) := by
  refine ⟨textDocument_textOnly _,
    (preserves_iff (textDocument_textOnly _)).2 ⟨?_, trivial, trivial⟩⟩
  rintro -
  exact ⟨rfl, by simp [Value.Uncut, Str.text, StrChar.text, aBrace]⟩

theorem quoteBrace_not_preserved : (textDocument [aQuote, aBrace]).value.TextOnly ∧
    ¬ Preserves (textDocument [aQuote, aBrace]) := by
  refine ⟨textDocument_textOnly _, ?_⟩
  rintro ⟨⟨keep, hconvert⟩, -⟩
  obtain ⟨hseen, -⟩ := seen_of_closers (textDocument_textOnly _) hconvert
  exact (hseen rfl).2 (by simp [Str.text, StrChar.text, aQuote, aBrace])

end AciX.Json

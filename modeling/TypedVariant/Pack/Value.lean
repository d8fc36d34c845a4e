import TypedVariant.Pack.Elements
import TypedVariant.Signature.Cursor

/-! # Packing a value against a type

Packing goes through a signature and a native value together. Each step takes
exactly one complete type from the front of the text and makes one variant; what
is left of the text comes back with the answer, also with a refusal. The elements
of an array are packed one by one against the text of the element type, and a
boxed value against its intrinsic type. Every nested type and every box is one
level deeper than what holds it. Whole signatures and cursors are packed against
in the same way.
-/

namespace TypedVariant.Pack

/-- What packing ends with: a variant or an error, and the text that is left. -/
abbrev Outcome := Except Error Variant × List Char

mutual

/-- Packs a value against the type at the front of the text. -/
def packValue [Codecs] (settings : Settings) (signature : String) (depth : Int) (simple : Bool)
    (text : List Char) (x : Native) : Outcome :=
  if settings.maxDepth < depth then (.error (.tooDeep settings.maxDepth), text)
  else
    match text with
    | [] => (.error (.typeExpected signature), [])
    | c :: rest =>
      match BasicCode.ofLetter? c with
      | some code =>
        -- A variant is not taken for the value that it would unpack to.
        match x.asVariant? with
        | some _ => (.error (.unboxedVariant code), c :: rest)
        | none => (Variant.ofBasic code x, rest)
      | none =>
        if simple then (.error (.malformed signature (.simpleExpected c)), c :: rest)
        else if _hv : c = 'v' then
          match x.asVariant? with
          | some v => (.ok (.box v), rest)
          | none =>
            match _h : x.intrinsicType? with
            | none => (.error (.noIntrinsicType x.kindName), rest)
            | some type =>
              ((packValue settings type.text (depth + 1) false type.letters x).1.map .box, rest)
        else if _hm : c = 'm' then
          -- Nothing has no type of its own, so the element type is all that is read.
          if x.isNull then
            match Signature.readOne ⟨false, settings.maxDepth⟩ (depth + 1) false rest with
            | (.error refusal, left) => (.error (refusal.error settings.maxDepth signature), left)
            | (.ok .variant, left) => (.error (.untypedNothing signature), left)
            | (.ok element, left) => (.ok (.nothing element.text), left)
          else
            let packed := packValue settings signature (depth + 1) false rest x
            (packed.1.map .just, packed.2)
        else if c = 'a' then
          -- The element type is read before the elements are looked at: there may be none of them.
          match Signature.readOne ⟨false, settings.maxDepth⟩ (depth + 1) false rest with
          | (.error refusal, left) => (.error (refusal.error settings.maxDepth signature), left)
          | (.ok element, left) =>
            match packFlat? settings element x with
            | some packed => (packed, left)
            | none =>
              match _h : elementsOf element x with
              | .error e => (.error e, left)
              | .ok items =>
                ((packEach settings element.text (depth + 1) element.letters items).bind
                  (Variant.arrayOf element.text), left)
        else if c = '(' then
          match _h : x.sequence? with
          | none => (.error (sequenceError .tuple x), rest)
          | some items =>
            -- How many members are missing is told only once all given ones are packed.
            match packMembers settings signature (depth + 1) rest 0 items.length items with
            | (.error e, left) => (.error e, left)
            | (.ok members, left) =>
              match missingMembers settings signature (depth + 1) left with
              | .error e => (.error e, left)
              | .ok 0 => (.ok (.tuple members), left.drop 1)
              | .ok missing =>
                (.error (.tupleSize (members.length + missing) items.length), left)
        else if c = '{' then
          match _h : x.sequence? with
          | none => (.error (sequenceError .dictEntry x), rest)
          | some [keyItem, valueItem] =>
            match packValue settings signature (depth + 1) true rest keyItem with
            | (.error e, left) => (.error e, left)
            | (.ok key, left) =>
              match packValue settings signature (depth + 1) false left valueItem with
              | (.error e, left) => (.error e, left)
              | (.ok value, '}' :: left) => (.ok (.entry key value), left)
              | (.ok _, left) => (.error (.malformed signature .entryUnclosed), left)
          | some items => (.error (.entrySize items.length), rest)
        else (.error (.unexpectedLetter signature c), c :: rest)
termination_by (x.height, 0, (if leadsToBox text then 1 else 0), text.length)
decreasing_by
  · subst _hv
    exact Prod.Lex.right _ (Prod.Lex.right _ (Prod.Lex.left _ _
      (by simp [leadsToBox_intrinsicType? _h, leadsToBox])))
  · subst _hm
    refine Prod.Lex.right _ (Prod.Lex.right _ ?_)
    simp only [leadsToBox]
    exact Prod.Lex.right _ (by simp)
  · exact Prod.Lex.left _ _ (heightAll_lt_of_elementsOf _h)
  · exact Prod.Lex.left _ _ (Native.heightAll_lt_of_sequence? _h)
  · have := Native.heightAll_lt_of_sequence? _h
    simp only [Native.heightAll] at this
    exact Prod.Lex.left _ _ (by omega)
  · have := Native.heightAll_lt_of_sequence? _h
    simp only [Native.heightAll] at this
    exact Prod.Lex.left _ _ (by omega)

/-- Packs the elements of an array, each against the whole text of the element type. -/
def packEach [Codecs] (settings : Settings) (signature : String) (depth : Int) (text : List Char) :
    List Native → Except Error (List Variant)
  | [] => .ok []
  | x :: rest =>
    match (packValue settings signature depth false text x).1 with
    | .error e => .error e
    | .ok v => (packEach settings signature depth text rest).map (v :: ·)
termination_by items => (Native.heightAll items, 1, 0, items.length)
decreasing_by
  · exact Native.lex_head _ _ _ _
  · exact Native.lex_tail _ _

/-- Packs the members of a tuple against the types of the text, one after the other. -/
def packMembers [Codecs] (settings : Settings) (signature : String) (depth : Int) (text : List Char)
    (packed given : Nat) : List Native → Except Error (List Variant) × List Char
  | [] => (.ok [], text)
  | x :: rest =>
    match text with
    | [] => (.error (.malformed signature .tupleUnclosed), [])
    | ')' :: left => (.error (.tupleSize packed given), ')' :: left)
    | c :: left =>
      match packValue settings signature depth false (c :: left) x with
      | (.error e, left) => (.error e, left)
      | (.ok v, left) =>
        let others := packMembers settings signature depth left (packed + 1) given rest
        (others.1.map (v :: ·), others.2)
termination_by items => (Native.heightAll items, 1, 0, items.length)
decreasing_by
  · exact Native.lex_head _ _ _ _
  · exact Native.lex_tail _ _

end

end TypedVariant.Pack

namespace TypedVariant

/-- Packs a value against a text that is exactly one type. -/
def packText [Codecs] (settings : Settings) (signature : String) (x : Native) :
    Except Error Variant :=
  if signature.isEmpty then .error .emptySignature
  else
    match Pack.packValue settings signature 0 false signature.toList x with
    | (.ok v, []) => .ok v
    | (.ok _, _ :: _) => .error (.signatureTail signature)
    | (.error e, _) => .error e

/-- Packs a value against a signature, which has to be text. -/
def pack [Codecs] (settings : Settings) (signature x : Native) : Except Error Variant := do
  packText settings (← Signature.textOf signature) x

/-- Packs a value against the next type of a cursor. -/
def Signature.Cursor.pack [Codecs] (settings : Settings) (depth : Int) (simple : Bool) (c : Cursor)
    (x : Native) : Except Error Variant × Cursor :=
  if settings.maxDepth < depth then (.error (.tooDeep settings.maxDepth), c)
  else if c.isOutside then (.error .positionIndex, c)
  else
    let (outcome, rest) := Pack.packValue settings c.text depth simple c.upcoming x
    (outcome, c.advance rest)

end TypedVariant

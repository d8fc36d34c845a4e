import TypedVariant.Proofs.Pack.Agreement
import TypedVariant.Proofs.Pack.RaisedLimit
import TypedVariant.Unpack

/-!
# The limit only cuts runs short

Reading, packing and unpacking look at the limit of the depth only to refuse what lies
too deep. What ends in any other way, with a result or with an error, ends in the same
way under every greater limit. Type strings of variants and texts of signature values
are read within limits of their own, which no settings change.
-/

namespace TypedVariant

namespace Variant

variable {settings : Settings} {limit : Int}

theorem checkDepth_raised (hlimit : settings.maxDepth ≤ limit) (depth : Int) :
    Extends Error.IsDepthLimit (checkDepth settings depth)
      (checkDepth { settings with maxDepth := limit } depth) := by
  rw [checkDepth, checkDepth]
  split
  next => exact .cutShort rfl
  next hfits =>
    have hraised : ¬ limit < depth := by omega
    rw [if_neg hraised]
    exact .refl _

/-- An attempt behind a check of the depth. -/
theorem guarded_raised {α : Type} {short long : Except Error α}
    (hlimit : settings.maxDepth ≤ limit) (depth : Int)
    (hextends : Extends Error.IsDepthLimit short long) :
    Extends Error.IsDepthLimit (checkDepth settings depth >>= fun _ => short)
      (checkDepth { settings with maxDepth := limit } depth >>= fun _ => long) :=
  (checkDepth_raised hlimit depth).bind (fun _ _ => hextends)

theorem unpackUnknown_raised (hlimit : settings.maxDepth ≤ limit) (opening : Opening)
    (depth : Int) (typeString : String) (content : Native) :
    Extends Error.IsDepthLimit (unpackUnknown settings opening depth typeString content)
      (unpackUnknown { settings with maxDepth := limit } opening depth typeString content) := by
  rw [unpackUnknown, unpackUnknown]
  dsimp only
  split
  next => exact .refl _
  next =>
    split
    next => exact .refl _
    next => exact guarded_raised hlimit _ (.refl _)
  next => exact .refl _
  next => exact .refl _

mutual

/-- Unpacking lasts, whatever the variant, how far it is opened and where it lies. The opening
changes on the way, since keys are opened deep. -/
theorem unpackAt_raised (hlimit : settings.maxDepth ≤ limit) : (v : Variant) →
    (opening : Opening) → (depth : Int) → Extends Error.IsDepthLimit
      (v.unpackAt settings opening depth)
      (v.unpackAt { settings with maxDepth := limit } opening depth)
  | boolean _, _, _ => guarded_raised hlimit _ (.refl _)
  | integer _ _, _, _ => guarded_raised hlimit _ (.refl _)
  | double _, _, _ => guarded_raised hlimit _ (.refl _)
  | text _ _, _, _ => guarded_raised hlimit _ (.refl _)
  | foreignBox _, _, _ => guarded_raised hlimit _ (.refl _)
  | nothing _, _, _ => guarded_raised hlimit _ (.refl _)
  | bytes _, _, _ => guarded_raised hlimit _ (.refl _)
  | box content, opening, depth => by
      rw [unpackAt, unpackAt]
      refine guarded_raised hlimit _ ?_
      split
      next => exact unpackAt_raised hlimit content opening (depth + 1)
      next => exact .refl _
  | just content, opening, depth => by
      rw [unpackAt, unpackAt]
      refine guarded_raised hlimit _ ?_
      split
      next => exact unpackAt_raised hlimit content opening (depth + 1)
      next => exact .refl _
  | array element items, opening, depth => by
      rw [unpackAt, unpackAt]
      -- Whether it is a dictionary is found out within a limit that no settings change.
      refine guarded_raised hlimit _ ((Extends.refl _).bind (fun dictionary _ => ?_))
      split
      next =>
        exact (unpackEntries_raised hlimit items opening (depth + 1)).bind (fun _ _ => .refl _)
      next =>
        split
        next => exact (unpackAll_raised hlimit items opening (depth + 1)).bind (fun _ _ => .refl _)
        next => exact .refl _
  | tuple members, opening, depth => by
      rw [unpackAt, unpackAt]
      refine guarded_raised hlimit _ ?_
      split
      next => exact (unpackAll_raised hlimit members opening (depth + 1)).bind (fun _ _ => .refl _)
      next => exact .refl _
  | entry key value, opening, depth => by
      rw [unpackAt, unpackAt]
      refine guarded_raised hlimit _ ?_
      split
      next =>
        refine (unpackAt_raised hlimit key opening (depth + 1)).bind (fun k _ => ?_)
        exact (unpackAt_raised hlimit value opening (depth + 1)).bind (fun _ _ => .refl _)
      next => exact .refl _
  | unknown typeString content, opening, depth =>
      guarded_raised hlimit _ (unpackUnknown_raised hlimit opening depth typeString content)
termination_by structural v => v

theorem unpackAll_raised (hlimit : settings.maxDepth ≤ limit) : (items : List Variant) →
    (opening : Opening) → (depth : Int) → Extends Error.IsDepthLimit
      (unpackAll settings opening depth items)
      (unpackAll { settings with maxDepth := limit } opening depth items)
  | [], _, _ => .refl _
  | v :: rest, opening, depth =>
      (unpackAt_raised hlimit v opening depth).bind (fun _ _ =>
        (unpackAll_raised hlimit rest opening depth).bind (fun _ _ => .refl _))
termination_by structural items => items

theorem unpackEntries_raised (hlimit : settings.maxDepth ≤ limit) : (items : List Variant) →
    (opening : Opening) → (depth : Int) → Extends Error.IsDepthLimit
      (unpackEntries settings opening depth items)
      (unpackEntries { settings with maxDepth := limit } opening depth items)
  | [], _, _ => .refl _
  | entry key value :: rest, opening, depth => by
      rw [unpackEntries, unpackEntries]
      refine guarded_raised hlimit _ ?_
      have hrest (pair : Native × Native) :=
        (unpackEntries_raised hlimit rest opening depth).bind
          (fun others _ => Extends.refl (.ok (pair :: others)))
      dsimp only
      split
      next =>
        refine (unpackAt_raised hlimit key opening (depth + 1)).bind (fun k _ => ?_)
        exact (unpackAt_raised hlimit value opening (depth + 1)).bind (fun x _ => hrest (k, x))
      next =>
        -- A value may stay closed, but its key is opened in every case.
        exact (unpackAt_raised hlimit key .deep (depth + 1)).bind
          (fun k _ => hrest (k, .variant value))
  | boolean _ :: _, _, _ | integer _ _ :: _, _, _ | double _ :: _, _, _ | text _ _ :: _, _, _
  | foreignBox _ :: _, _, _ | nothing _ :: _, _, _ | bytes _ :: _, _, _ | box _ :: _, _, _
  | just _ :: _, _, _ | array _ _ :: _, _, _ | tuple _ :: _, _, _ | unknown _ _ :: _, _, _ =>
      .refl _
termination_by structural items => items

end

end Variant

theorem Native.unpackContainer_raised {settings : Settings} {limit : Int}
    (hlimit : settings.maxDepth ≤ limit) (opening : Opening) (depth : Int) (x : Native) :
    Extends Error.IsDepthLimit (x.unpackContainer settings opening depth)
      (x.unpackContainer { settings with maxDepth := limit } opening depth) := by
  unfold Native.unpackContainer
  refine Variant.guarded_raised hlimit _ ?_
  split
  next v => exact Variant.unpackAt_raised hlimit v opening depth
  next => exact .refl _
  next => exact .refl _

/-- Whatever is read, matched, packed or unpacked under a limit ends in the error of the depth, or
it ends in the same result or the same error under every greater limit. -/
theorem limit_only_cuts_short [Codecs] {limit raised : Int} (hlimit : limit ≤ raised) :
    (∀ signature : Native,
      Extends Error.IsDepthLimit (Signature.textOf signature >>= Signature.parse limit)
        (Signature.textOf signature >>= Signature.parse raised)) ∧
    (∀ signature : Native,
      Extends Error.IsDepthLimit (Signature.textOf signature >>= Signature.parseAll limit)
        (Signature.textOf signature >>= Signature.parseAll raised)) ∧
    (∀ pattern : Native,
      Extends Error.IsDepthLimit (Signature.textOf pattern >>= Signature.parsePattern limit)
        (Signature.textOf pattern >>= Signature.parsePattern raised)) ∧
    (∀ type pattern : TypeSource,
      Extends Error.IsDepthLimit (Signature.typeMatches limit type pattern)
        (Signature.typeMatches raised type pattern)) ∧
    (∀ (settings : Settings) (signature x : Native),
      Extends Error.IsDepthLimit (pack { settings with maxDepth := limit } signature x)
        (pack { settings with maxDepth := raised } signature x)) ∧
    (∀ (settings : Settings) (deep recursive : Bool) (depth : Int) (x : Native),
      Extends Error.IsDepthLimit
        (x.unpackContainer { settings with maxDepth := limit } (.ofFlags deep recursive) depth)
        (x.unpackContainer { settings with maxDepth := raised } (.ofFlags deep recursive)
          depth)) := by
  refine ⟨fun signature => ?_, fun signature => ?_, fun pattern => ?_, ?_, ?_, ?_⟩
  · exact (Extends.refl _).bind (fun text _ => Signature.parse_raised hlimit text)
  · exact (Extends.refl _).bind (fun text _ => Signature.parseAll_raised hlimit text)
  · exact (Extends.refl _).bind (fun text _ => Signature.parsePattern_raised hlimit text)
  · exact Signature.typeMatches_raised hlimit
  · intro settings signature x
    exact @Pack.pack_raised { settings with maxDepth := limit } raised _ hlimit signature x
  · intro settings deep recursive depth x
    exact @Native.unpackContainer_raised { settings with maxDepth := limit } raised hlimit _ depth x

section

open scoped Standard

/-- A tuple that lacks a member is refused for that as soon as the limit allows its members. -/
theorem limit_only_cuts_short_tuple :
    (1 : Int) ≤ 4096 ∧
      pack { maxDepth := 1 } (.text "(is)") (.list [.int 1]) = .error (.tupleSize 2 1) ∧
      pack { maxDepth := 4096 } (.text "(is)") (.list [.int 1]) = .error (.tupleSize 2 1) := by
  have hparse : Signature.parse ({ maxDepth := 1 } : Settings).maxDepth "(is)" =
      .ok (.tuple [.basic (.integer .int32), .basic (.text .string)]) := by rfl
  have hshort : pack { maxDepth := 1 } (.text "(is)") (.list [.int 1]) =
      .error (.tupleSize 2 1) := by
    refine (packText_eq_packAs hparse _).trans ?_
    rw [Pack.packAs_tuple (by decide), Native.sequence?]
    simp only [Pack.packMembersAs]
    rw [Pack.packAs_basic (by decide)]
    rfl
  refine ⟨by decide, hshort, ?_⟩
  rcases (limit_only_cuts_short (show (1 : Int) ≤ 4096 by decide)).2.2.2.2.1 {} (.text "(is)")
    (.list [.int 1]) with ⟨e, hcut, he⟩ | hsame
  · rw [hshort] at he
    obtain rfl := Except.error.inj he
    cases hcut
  · exact hsame.trans hshort

end

end TypedVariant

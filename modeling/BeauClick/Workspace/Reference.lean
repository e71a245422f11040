import BeauClick.Lib.Netstring
import Mathlib.Data.List.Induction
import Mathlib.Data.Set.Function

/-!
# Opaque references

`workspace-reference.ts`, `location-reference.ts` and `resource-reference.ts`
(`libs/workspace-reference/src`): three kinds of object behind one secret.

* `input_injective` — no two objects of any kind have one MAC input.
* `references_identify` — a reference is of one object, and resolves to it or to nothing.
-/

namespace BeauClick.Workspace

open Base64url List

/-- `WORKSPACE_PARTY_TYPES`: no others pass `assertSellerWorkspaceParty`. -/
inductive PartyType where
  | professional
  | business
  deriving DecidableEq

def PartyType.text : PartyType → String
  | .professional => "professional"
  | .business => "business"

/-- A party that owns workspaces. -/
structure WorkspaceParty where
  partyType : PartyType
  partyId : List Char
  deriving DecidableEq

/-- A location and its owner. -/
structure OwnedLocationRef where
  businessId : List Char
  locationId : List Char
  deriving DecidableEq

/-- A resource, its location and its owner. -/
structure OwnedResourceRef where
  businessId : List Char
  locationId : List Char
  resourceId : List Char
  deriving DecidableEq

/-! ## What is authenticated -/

/-- The framed fields that a workspace's digest is over. -/
def workspaceReferenceInput (ownerUserId : List Char) (party : WorkspaceParty) : List Char :=
  Netstring.join "beauclick.workspace-reference.v1".toList
    [ownerUserId, party.partyType.text.toList, party.partyId]

/-- The framed fields of a location. -/
def locationReferenceInput (ownerUserId : List Char) (location : OwnedLocationRef) : List Char :=
  Netstring.join "beauclick.location-reference.v1".toList
    [ownerUserId, location.businessId, location.locationId]

/-- The framed fields of a resource. -/
def resourceReferenceInput (ownerUserId : List Char) (resource : OwnedResourceRef) : List Char :=
  Netstring.join "beauclick.resource-reference.v1".toList
    [ownerUserId, resource.businessId, resource.locationId, resource.resourceId]

/-- An object of one of the three kinds, with its owner. -/
inductive OwnedObject where
  | workspace (ownerUserId : List Char) (party : WorkspaceParty)
  | location (ownerUserId : List Char) (location : OwnedLocationRef)
  | resource (ownerUserId : List Char) (resource : OwnedResourceRef)

def OwnedObject.input : OwnedObject → List Char
  | .workspace owner x => workspaceReferenceInput owner x
  | .location owner x => locationReferenceInput owner x
  | .resource owner x => resourceReferenceInput owner x

theorem PartyType.text_injective : Function.Injective fun t : PartyType => t.text.toList := by
  rintro (_ | _) (_ | _) h <;> first | rfl | exact absurd h (by decide)

theorem OwnedObject.input_injective : Function.Injective OwnedObject.input := by
  rintro (⟨_, _, _⟩ | ⟨_, _, _⟩ | ⟨_, _, _, _⟩)
    (⟨o', t', i'⟩ | ⟨o', b', l'⟩ | ⟨o', b', l', r'⟩) h <;>
    obtain ⟨hdomain, hfields⟩ := Netstring.join_injective (by decide) (by decide)
      (cons_ne_nil _ _) (cons_ne_nil _ _) h
  case workspace.workspace =>
    simp only [List.cons.injEq, and_true] at hfields
    obtain ⟨rfl, htype, rfl⟩ := hfields
    rw [PartyType.text_injective htype]
  case location.location | resource.resource => simp_all
  -- the kinds have different domains
  all_goals exact absurd hdomain (by decide)

/-! ## References -/

/-- `createHmac('sha256', secret)`, of the one secret, and `createHash('sha256')`, on bytes. -/
structure ReferenceCrypto where
  hmac : List UInt8 → List UInt8
  sha256 : List UInt8 → List UInt8

namespace ReferenceCrypto

variable (crypto : ReferenceCrypto)

/-- The reference of a MAC input, in base64url. -/
def derive (input : List Char) : List Char := Base64url.encode (crypto.hmac (Utf8.encode input))

/-- `workspaceReferencesMatch`, and the same of the other two kinds. -/
def referencesMatch (a b : List Char) : Bool :=
  crypto.sha256 (Utf8.encode a) = crypto.sha256 (Utf8.encode b)

/-- `WORKSPACE_REFERENCE_PATTERN`, and the same of the other two kinds. -/
def pattern (supplied : List Char) : Bool :=
  supplied.length = 43 ∧ supplied.all fun c => c.isAlphanum || c = '-' || c = '_'

/-- The resolver of each kind: every candidate is compared, and the last match is kept. -/
def resolve {α : Type} (input : α → List Char) (owned : List α) (supplied : List Char) : Option α :=
  if pattern supplied then
    owned.foldl (fun matched x =>
      if crypto.referencesMatch (crypto.derive (input x)) supplied then some x else matched) none
  else none

/-- The party whose reference it is. -/
def resolveWorkspaceReference (ownerUserId : List Char) :=
  crypto.resolve (workspaceReferenceInput ownerUserId)

def resolveLocationReference (ownerUserId : List Char) :=
  crypto.resolve (locationReferenceInput ownerUserId)

def resolveResourceReference (ownerUserId : List Char) :=
  crypto.resolve (resourceReferenceInput ownerUserId)

/-! ## Who a reference is accepted for -/

/-- On some MAC inputs, what the two functions are relied on for: no two have one MAC, no other
text has the digest of a reference, and a MAC has its length. -/
structure Collisionless (inputs : Set (List Char)) : Prop where
  hmac : Set.InjOn (fun input => crypto.hmac (Utf8.encode input)) inputs
  length : ∀ bytes, (crypto.hmac bytes).length = 32
  sha256 : ∀ input ∈ inputs, ∀ supplied, pattern supplied →
    crypto.referencesMatch (crypto.derive input) supplied → crypto.derive input = supplied

/-- Among some candidates, a resolver gives the one whose reference was presented. -/
def Identifies (inputs : Set (List Char)) {α : Type} (input : α → List Char)
    (resolve : List α → List Char → Option α) : Prop :=
  ∀ owned, (∀ x ∈ owned, input x ∈ inputs) → ∀ supplied x,
    resolve owned supplied = some x ↔ x ∈ owned ∧ supplied = crypto.derive (input x)

variable {crypto} {inputs : Set (List Char)} (h : crypto.Collisionless inputs)
include h

theorem pattern_derive (input : List Char) : pattern (crypto.derive input) := by
  have hchar : ∀ n < 64, ((char n).isAlphanum || char n = '-' ||
      char n = '_') = true := by decide
  refine decide_eq_true ⟨?_, all_eq_true.2 fun c hc => ?_⟩
  · rw [derive, encode, length_map, length_sextets, h.length]
  · obtain ⟨n, hn, rfl⟩ := mem_map.1 hc
    exact hchar n (sextets_lt _ n hn)

theorem eq_of_derive {a b : List Char} (ha : a ∈ inputs) (hb : b ∈ inputs)
    (heq : crypto.derive a = crypto.derive b) : a = b := by
  refine h.hmac ha hb ?_
  simpa only [derive, decode_encode] using congrArg decode heq

theorem referencesMatch_iff {input supplied : List Char} (hin : input ∈ inputs)
    (hpattern : pattern supplied) :
    crypto.referencesMatch (crypto.derive input) supplied ↔ supplied = crypto.derive input := by
  refine ⟨fun hmatch => (h.sha256 input hin supplied hpattern hmatch).symm, ?_⟩
  rintro rfl
  simp [referencesMatch]

theorem identifies_resolve {α : Type} {input : α → List Char} (hin : Function.Injective input) :
    crypto.Identifies inputs input (crypto.resolve input) := by
  intro owned howned supplied x
  unfold resolve
  split_ifs with hpattern
  · induction owned using List.reverseRecOn with
    | nil => simp
    | append_singleton owned z ih =>
      have ih := ih fun y hy => howned y (mem_append_left _ hy)
      have hz := howned z (by simp)
      rw [foldl_append, foldl_cons, foldl_nil, mem_append, mem_singleton]
      split_ifs with hmatch
      · -- an earlier match is the same object
        rw [referencesMatch_iff h hz hpattern] at hmatch
        constructor
        · rintro ⟨⟩
          exact ⟨.inr rfl, hmatch⟩
        · rintro ⟨hx | rfl, heq⟩
          · rw [hin (eq_of_derive h hz (howned x (mem_append_left _ hx))
              (hmatch.symm.trans heq))]
          · rfl
      · rw [ih]
        refine ⟨fun ⟨hx, heq⟩ => ⟨.inl hx, heq⟩, ?_⟩
        rintro ⟨hx | rfl, heq⟩
        · exact ⟨hx, heq⟩
        · exact absurd ((referencesMatch_iff h hz hpattern).2 heq) hmatch
  · refine iff_of_false nofun ?_
    rintro ⟨-, rfl⟩
    exact hpattern (pattern_derive h _)

/-- A reference is of one kind, one owner and one object, and each resolver gives the object that
it is of when that is a candidate, and nothing for any other text. -/
theorem references_identify :
    (∀ x y : OwnedObject, x.input ∈ inputs → y.input ∈ inputs →
      crypto.derive x.input = crypto.derive y.input → x = y) ∧
    ∀ owner,
      crypto.Identifies inputs (workspaceReferenceInput owner)
        (crypto.resolveWorkspaceReference owner) ∧
      crypto.Identifies inputs (locationReferenceInput owner)
        (crypto.resolveLocationReference owner) ∧
      crypto.Identifies inputs (resourceReferenceInput owner)
        (crypto.resolveResourceReference owner) := by
  refine ⟨fun x y hx hy heq => OwnedObject.input_injective (eq_of_derive h hx hy heq),
    fun owner => ⟨?_, ?_, ?_⟩⟩
  · exact identifies_resolve h fun x y heq => (OwnedObject.workspace.inj
      (@OwnedObject.input_injective (.workspace owner x) (.workspace owner y) heq)).2
  · exact identifies_resolve h fun x y heq => (OwnedObject.location.inj
      (@OwnedObject.input_injective (.location owner x) (.location owner y) heq)).2
  · exact identifies_resolve h fun x y heq => (OwnedObject.resource.inj
      (@OwnedObject.input_injective (.resource owner x) (.resource owner y) heq)).2

omit h

/-! ## Two workspaces and a location of one owner -/

namespace Owner

def professional : WorkspaceParty := ⟨.professional, "p1".toList⟩

def business : WorkspaceParty := ⟨.business, "b1".toList⟩

def location : OwnedLocationRef := ⟨"b1".toList, "l1".toList⟩

/-- The MAC inputs of the three. -/
def threeInputs : List (List Char) :=
  [workspaceReferenceInput "u1".toList professional, workspaceReferenceInput "u1".toList business,
    locationReferenceInput "u1".toList location]

/-- 32 bytes. -/
def digest (n : ℕ) : List UInt8 := (List.range 32).map fun i => UInt8.ofNat (n >>> (248 - 8 * i))

/-- The references, under the key `s`. -/
def professionalReference : List Char := "9Qz7jpBH8UjAwHlpnJbyw8IFDnbItXCJqFP0F-zu1y8".toList

def businessReference : List Char := "DNi5Edg4S3QGdYhFUQDpZF3kWv14uVjD7Do-ez4QGgc".toList

def locationReference : List Char := "l1MbgPq_5DeKfn8wO4YVL4ekHUvIg25uZ4LD0TwsI14".toList

def threeReferences : List (List Char) :=
  [professionalReference, businessReference, locationReference]

/-- What the two functions are of the three inputs and the three references. -/
def ofThree : ReferenceCrypto where
  hmac bytes :=
    digest (if bytes = Utf8.encode (workspaceReferenceInput "u1".toList professional) then
      0xf50cfb8e9047f148c0c079699c96f2c3c2050e76c8b57089a853f417eceed72f
    else if bytes = Utf8.encode (workspaceReferenceInput "u1".toList business) then
      0x0cd8b911d8384b74067588455100e9645de45afd78b958c3ec3a3e7b3e101a07
    else 0x97531b80fabfe4378a7e7f303b86152f87a41d4bc8836e6e6782c3d13c2c235e)
  sha256 bytes :=
    if bytes = Utf8.encode professionalReference then
      digest 0xffb4579971a14cfee783813524f826eded16c2cbf2b70b00b83aeef3f671351e
    else if bytes = Utf8.encode businessReference then
      digest 0x8531b1792a228cea9587b4dad8c673f7aec64f4b3a35c5417ef792b0e45dd02a
    else if bytes = Utf8.encode locationReference then
      digest 0x3ab590c72b71ca550dcf29b776f0215728933c26599f9a139d27d767c1981708
    else bytes

theorem derive_threeInputs : threeInputs.map ofThree.derive = threeReferences := by decide +kernel

/-- Whatever is presented has the digest of no reference but itself. -/
theorem eq_of_referencesMatch {a supplied : List Char}
    (ha : a ∈ threeReferences)
    (hpattern : pattern supplied) (hmatch : ofThree.referencesMatch a supplied) : a = supplied := by
  by_cases hs : supplied ∈ threeReferences
  · have hall : ∀ a ∈ threeReferences, ∀ b ∈ threeReferences,
        ofThree.referencesMatch a b → a = b := by decide +kernel
    exact hall a ha supplied hs hmatch
  · have hne : ∀ r, supplied ≠ r → Utf8.encode supplied ≠ Utf8.encode r := by
      intro r hr heq
      exact hr (by simpa only [Utf8.decode_encode] using congrArg Utf8.decode heq)
    simp only [threeReferences, mem_cons, not_mem_nil, or_false, not_or] at hs
    have hself : ofThree.sha256 (Utf8.encode supplied) = Utf8.encode supplied := by
      simp only [ofThree, hne _ hs.1, hne _ hs.2.1, hne _ hs.2.2, if_false]
    have hbytes : ofThree.sha256 (Utf8.encode a) = Utf8.encode supplied :=
      (of_decide_eq_true hmatch).trans hself
    have hdigest : ∀ a ∈ threeReferences,
        ¬pattern (Utf8.decode (ofThree.sha256 (Utf8.encode a))) := by decide +kernel
    refine absurd ?_ (hdigest a ha)
    rwa [hbytes, Utf8.decode_encode]

theorem collisionless : ofThree.Collisionless {input | input ∈ threeInputs} where
  hmac := by
    have hall : ∀ a ∈ threeInputs, ∀ b ∈ threeInputs,
        ofThree.hmac (Utf8.encode a) = ofThree.hmac (Utf8.encode b) → a = b := by decide +kernel
    exact fun a ha b hb heq => hall a ha b hb heq
  length bytes := by simp [ofThree, digest]
  sha256 input hin supplied hpattern hmatch := by
    refine eq_of_referencesMatch ?_ hpattern hmatch
    exact mem_map_of_mem hin

end Owner

open Owner in
/-- Each reference is of one of the three, and the location's one opens no workspace. -/
theorem ofThree_resolves :
    ofThree.resolveWorkspaceReference "u1".toList [professional, business] businessReference =
        some business ∧
      ofThree.resolveWorkspaceReference "u1".toList [professional, business] locationReference =
        none ∧
      ofThree.resolveLocationReference "u1".toList [location] locationReference =
        some location := by
  obtain ⟨hdist, hresolve⟩ := references_identify collisionless
  obtain ⟨hworkspace, hlocation, -⟩ := hresolve "u1".toList
  obtain ⟨-, hbusinessRef, hlocationRef⟩ := List.cons.inj derive_threeInputs |>.imp_right
    fun h => List.cons.inj h |>.imp_right fun h => (List.cons.inj h).1
  have howned : ∀ x ∈ [professional, business],
      workspaceReferenceInput "u1".toList x ∈ threeInputs := by decide +kernel
  have hlocated : ∀ x ∈ [location], locationReferenceInput "u1".toList x ∈ threeInputs := by
    decide +kernel
  refine ⟨(hworkspace _ howned _ _).2 ⟨by simp, hbusinessRef.symm⟩, ?_, ?_⟩
  · refine Option.eq_none_iff_forall_ne_some.2 fun x hx => ?_
    obtain ⟨hx, href⟩ := (hworkspace _ howned _ _).1 hx
    cases hdist (.workspace "u1".toList x) (.location "u1".toList location) (howned x hx)
      (hlocated _ mem_cons_self) (href.symm.trans hlocationRef.symm)
  · exact (hlocation _ hlocated _ _).2 ⟨by simp, hlocationRef.symm⟩

end ReferenceCrypto

end BeauClick.Workspace

import Codrik.Runtime.Model

/-! Delivery routes and text chunking (`runtime/gateway.rs`). -/

namespace Codrik.Runtime

/-- Where replies go. `DeliveryRoute::new` is the only way to build a route, so its checks
hold of every route the store keeps.
-/
structure DeliveryRoute where
  gateway : String
  address : String
  replyToExternalId : Option String
  maxTextChars : Nat
  maxCaptionChars : Nat
  gatewayNamed : isBlank gateway = false
  addressNamed : isBlank address = false
  textLimit : 0 < maxTextChars
  captionLimit : 0 < maxCaptionChars
deriving DecidableEq

/-- `DeliveryRoute::new` -/
def DeliveryRoute.new (gateway address : String) (replyToExternalId : Option String)
    (maxTextChars maxCaptionChars : Nat)
    : Except String DeliveryRoute :=
  if hg : isBlank gateway = false then
    if ha : isBlank address = false then
      if ht : 0 < maxTextChars then
        if hc : 0 < maxCaptionChars then
          .ok ⟨gateway, address, replyToExternalId, maxTextChars, maxCaptionChars, hg, ha, ht, hc⟩
        else .error "delivery caption limit must be greater than zero"
      else .error "delivery text limit must be greater than zero"
    else .error "delivery address must not be blank"
  else .error "delivery gateway must not be blank"

/-- A route passes its own constructor's checks. -/
theorem DeliveryRoute.new_self (route : DeliveryRoute)
    : DeliveryRoute.new route.gateway route.address route.replyToExternalId
        route.maxTextChars route.maxCaptionChars
      = .ok route := by
  simp [DeliveryRoute.new, route.gatewayNamed, route.addressNamed, route.textLimit,
    route.captionLimit]

/-- The loop of `split_unicode`; `current` is the open chunk of `count` characters. -/
def splitUnicode.loop (maxChars : Nat)
    : List Char → (current : List Char) → (count : Nat) → List String
  | [], current, _ => if current = [] then [] else [String.ofList current]
  | c :: rest, current, count =>
      if count = maxChars then
        String.ofList current :: splitUnicode.loop maxChars rest [c] 1
      else
        splitUnicode.loop maxChars rest (current ++ [c]) (count + 1)

/-- `split_unicode` -/
def splitUnicode (text : String) (maxChars : Nat) : List String :=
  splitUnicode.loop maxChars text.toList [] 0

/-- The chunks hold the open chunk and the rest of the text, and none is empty or too long, by
induction on the rest.
-/
theorem splitUnicode.loop_chunks {maxChars : Nat} (positive : 0 < maxChars) (rest : List Char)
    {current : List Char} (fits : current.length ≤ maxChars)
    : (splitUnicode.loop maxChars rest current current.length).flatMap String.toList
        = current ++ rest
      ∧ ∀ chunk ∈ splitUnicode.loop maxChars rest current current.length,
        1 ≤ chunk.length ∧ chunk.length ≤ maxChars := by
  induction rest generalizing current with
  | nil =>
      rw [splitUnicode.loop, List.append_nil]
      split
      · rename_i empty
        exact ⟨empty.symm, fun chunk mem => absurd mem List.not_mem_nil⟩
      · rename_i some
        refine ⟨?_, fun chunk mem => ?_⟩
        · rw [List.flatMap_singleton, String.toList_ofList]
        · rw [List.mem_singleton.mp mem, String.length_ofList]
          exact ⟨List.length_pos_of_ne_nil some, fits⟩
  | cons c rest ih =>
      rw [splitUnicode.loop]
      split
      · rename_i full
        obtain ⟨whole, bounds⟩ := @ih [c] positive
        refine ⟨?_, fun chunk mem => ?_⟩
        · rw [List.flatMap_cons, String.toList_ofList]
          exact congrArg (current ++ ·) whole
        · rcases List.mem_cons.mp mem with rfl | later
          · rw [String.length_ofList, full]
            exact ⟨positive, Nat.le_refl _⟩
          · exact bounds chunk later
      · rename_i open'
        have next := @ih (current ++ [c]) (by
          rw [List.length_append, List.length_singleton]
          omega)
        rw [List.length_append, List.length_singleton, List.append_assoc] at next
        exact next

/-- The chunks of a text join to it, and none is empty or too long. -/
theorem splitUnicode_chunks (text : String) {maxChars : Nat} (positive : 0 < maxChars)
    : String.join (splitUnicode text maxChars) = text
      ∧ ∀ chunk ∈ splitUnicode text maxChars, 1 ≤ chunk.length ∧ chunk.length ≤ maxChars := by
  obtain ⟨whole, bounds⟩ :=
    @splitUnicode.loop_chunks _ positive text.toList [] (Nat.zero_le _)
  refine ⟨?_, bounds⟩
  rw [← String.toList_inj, String.toList_join]
  exact whole

end Codrik.Runtime

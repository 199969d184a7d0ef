import ApfsForensic.Core.CheckpointMap
import ApfsForensic.Core.ChecksumStrength
import ApfsForensic.Core.Contents
import ApfsForensic.Core.Damage
import ApfsForensic.Core.DirNames
import ApfsForensic.Core.EncryptedExtent
import ApfsForensic.Core.FileContent
import ApfsForensic.Core.FileIds
import ApfsForensic.Core.FreeSpace
import ApfsForensic.Core.FsObjects
import ApfsForensic.Core.Isolation
import ApfsForensic.Core.KeybagWalk
import ApfsForensic.Core.KeyedWalk
import ApfsForensic.Core.Navigation
import ApfsForensic.Core.NodeCodec
import ApfsForensic.Core.PackedNode
import ApfsForensic.Core.Panic
import ApfsForensic.Core.Reader
import ApfsForensic.Core.ResourceFork
import ApfsForensic.Core.RingChanges
import ApfsForensic.Core.RunList
import ApfsForensic.Core.SharedHandle
import ApfsForensic.Core.SnapshotKey
import ApfsForensic.Core.SnapshotMount
import ApfsForensic.Core.SnapshotRecords
import ApfsForensic.Core.Superblocks
import ApfsForensic.Core.Timeline
import ApfsForensic.Core.Unlock
import ApfsForensic.Core.UnlockCheck
import ApfsForensic.Core.UnlockedVolume
import ApfsForensic.Core.Vfs
import ApfsForensic.Core.VolumeSlots
import ApfsForensic.Core.WholeSectors
import ApfsForensic.Core.Written
import ApfsForensic.Core.Xfields
import ApfsForensic.Forensic.Audit
import ApfsForensic.Forensic.Crypto
import ApfsForensic.Forensic.Integrity
import ApfsForensic.Forensic.Leads
import ApfsForensic.Forensic.Report
import ApfsForensic.Forensic.Snapshots
import ApfsForensic.Shared.Lock
import ApfsForensic.Shared.Script
import ApfsForensic.Text.Numerals
import ApfsForensic.Walk.Degrade
import ApfsForensic.Walk.Follow

import Keepup.Lib.Dict
import Keepup.Lib.Shell
import Keepup.Lib.CommandLine
import Keepup.Lib.Remote
import Keepup.Lib.Sealed
import Keepup.Lib.Script
import Keepup.Text
import Keepup.Config
import Keepup.Docker.RunCommand
import Keepup.Docker.RunReading
import Keepup.Docker.Daemon
import Keepup.Docker.Standalone
import Keepup.Docker.Slots
import Keepup.Docker.Stages
import Keepup.Docker.Rollback
import Keepup.Docker.Frame
import Keepup.Docker.Concurrent
import Keepup.Credentials.Store
import Keepup.Credentials.Separation
import Keepup.Credentials.Vault
import Keepup.Credentials.WrongKey
import Keepup.Hosts.Dispatch
import Keepup.Hosts.Reach
import Keepup.Text.Lines
import Keepup.Packages.Managers
import Keepup.Packages.Listings
import Keepup.Packages.RowReading
import Keepup.Packages.RebootFlag
import Keepup.Hosts.Session
import Keepup.Hosts.Upgrade
import Keepup.Hosts.Check
import Keepup.Hosts.Kernel
import Keepup.Hosts.Schedule
import Keepup.Hosts.Reboot
import Keepup.Docker.SelfIdentity
import Keepup.Portainer.Update
import Keepup.Docker.Compose
import Keepup.Docker.SelfUpdate
import Keepup.Lib.Numbered
import Keepup.Lib.Runs
import Keepup.Proxmox.Servers
import Keepup.Proxmox.Migration
import Keepup.Proxmox.Preservation
import Keepup.Proxmox.Ids
import Keepup.Proxmox.Saves
import Keepup.Proxmox.SavedCredentials
import Keepup.Proxmox.Ownership
import Keepup.Proxmox.Reowning
import Keepup.Proxmox.Located
import Keepup.Proxmox.OwnershipRuns
import Keepup.Proxmox.Deletion
import Keepup.Proxmox.SaveFrame
import Keepup.Hosts.Recording
import Keepup.Config.File
import Keepup.Config.Reset
import Keepup.Schedules.Scheduler
import Keepup.Schedules.HostJobs
import Keepup.Hosts.Wizard
import Keepup.Lib.Percent
import Keepup.Schedules.UpdatePaths
import Keepup.Schedules.StackJobs
import Keepup.Schedules.Redeploys
import Keepup.Config.Isolation
import Keepup.Auth.Account
import Keepup.Lib.SlidingWindow
import Keepup.Lib.UrlSplit
import Keepup.Auth.AdminLimiter
import Keepup.Auth.Redirect
import Keepup.Auth.Login
import Keepup.Auth.Routes
import Keepup.Auth.Sessions
import Keepup.Auth.Proofs
import Keepup.Hosts.KeyFiles
import Keepup.Hosts.KeyRoutes
import Keepup.Hosts.Grouping
import Keepup.Hosts.RefreshCache
import Keepup.Notifier.Store
import Keepup.Notifier.Transitions
import Keepup.Notifier.Staleness
import Keepup.Notifier.Interference
import Keepup.Lib.Masking
import Keepup.Docker.References
import Keepup.Docker.Discovery
import Keepup.Portainer.Stacks
import Keepup.Docker.Coverage
import Keepup.Docker.StackMigration
import Keepup.Docker.HostEdit
import Keepup.Hosts.AptAgreement
import Keepup.Hosts.ChosenAuth
import Keepup.Activity.Redaction
import Keepup.Activity.Log
import Keepup.Activity.Crash
import Keepup.Activity.Import
import Keepup.Activity.Leaks
import Keepup.Activity.IndexText
import Keepup.Activity.Secrecy
import Keepup.Activity.Jobs
import Keepup.Docker.Redeploy
import Keepup.Lib.ShellCommand
import Keepup.Docker.Storage
import Keepup.Text.Cuts
import Keepup.Docker.Health
import Keepup.Docker.Ports
import Keepup.Registry.ImageRef
import Keepup.Registry.Checks
import Keepup.Activity.Output
import Keepup.Activity.Retention
import Keepup.Activity.LegacyJson
import Keepup.Auth.SetupRoutes
import Keepup.Hosts.KernelOrder
import Keepup.Hosts.HeldBack
import Keepup.Packages.AlpineNames
import Keepup.Packages.CheckUpdate
import Keepup.Config.SshDefaults
import Keepup.Schedules.LastCheck
import Keepup.Schedules.UpdateScan
import Keepup.Lib.Gate
import Keepup.Schedules.HostScan
import Keepup.Lib.Locked
import Keepup.Notifier.Notifications
import Keepup.Lib.Exchange
import Keepup.Registry.Lookup
import Keepup.Lib.Sorting
import Keepup.Proxmox.Discovery
import Keepup.Proxmox.Selecting
import Keepup.Registry.Redirects
import Keepup.Docker.Dashboard
import Keepup.Schedules.CheckInterval
import Keepup.Lib.Resuming
import Keepup.Config.TofuMigration
import Keepup.Lib.Markup
import Keepup.Activity.LogPage
import Keepup.Lib.Approval
import Keepup.Auth.CertTrust
import Keepup.Docker.Backends
import Keepup.Docker.MonitoringPanel
